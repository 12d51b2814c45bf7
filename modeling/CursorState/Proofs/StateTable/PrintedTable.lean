import Mathlib.Data.List.Forall2
import Mathlib.Data.List.Nodup
import CursorState.Proofs.Json.Layout
import CursorState.Proofs.Json.PrintWritten
import CursorState.StateTable.Conversion

/-! The printed text of a table: how it is laid out, and that it shows everything that the table
holds. -/
namespace CursorState
open Text

theorem digitsValue_repr (n : Nat) : digitsValue n.repr.toList = n := by
  rw [Nat.toList_repr, digitsValue_toDigits]

theorem StateId.display_injective : Function.Injective StateId.display := by
  intro id id' h
  apply toNat_inj.mp
  calc id.toNat = digitsValue id.display.toList := (digitsValue_repr id.toNat).symm
    _ = digitsValue id'.display.toList := by rw [h]
    _ = id'.toNat := digitsValue_repr id'.toNat

/-- An item is shown as an object of its key, as it is, and of its value, as a whole number. -/
def ItemShown (item : StateItem) (v : Json.Value) : Prop :=
  ∃ token, v = .object [("key", .string item.key), ("value", .number token)] ∧
    token.number? = some (.natural item.value)

/-- A state is shown as a member that is named by its number and lists its items. -/
def StateShown (entry : StateId × List StateItem) (member : String × Json.Value) : Prop :=
  member.1 = entry.1.toNat.repr ∧
    ∃ elements, member.2 = .array elements ∧ List.Forall₂ ItemShown entry.2 elements

theorem ItemShown.leftUnique : Relator.LeftUnique ItemShown := by
  rintro ⟨key, value⟩ ⟨key', value'⟩ v ⟨token, hv, hvalue⟩ ⟨token', hv', hvalue'⟩
  rw [hv] at hv'
  simp only [Json.Value.object.injEq, List.cons.injEq, Prod.mk.injEq, Json.Value.string.injEq,
    Json.Value.number.injEq, true_and, and_true] at hv'
  obtain ⟨rfl, rfl⟩ := hv'
  rw [hvalue] at hvalue'
  cases hvalue'
  rfl

theorem StateShown.leftUnique : Relator.LeftUnique StateShown := by
  rintro ⟨id, items⟩ ⟨id', items'⟩ member ⟨hname, elements, helements, hitems⟩
    ⟨hname', elements', helements', hitems'⟩
  obtain rfl : id = id' := StateId.display_injective (hname.symm.trans hname')
  rw [helements] at helements'
  cases helements'
  have hsame : items = items' := ItemShown.leftUnique.forall₂ hitems hitems'
  rw [hsame]

theorem itemShown_toJson (item : StateItem) : ItemShown item item.toJson := by
  refine ⟨_, rfl, ?_⟩
  rw [Json.NumberToken.number?_ofNat item.value.toNat_lt, UInt64.ofNat_toNat]

theorem StateItem.proper_toJson (item : StateItem) : item.toJson.Proper := by
  refine .object fun m hm => ?_
  rcases List.mem_pair.mp hm with rfl | rfl
  · exact .string item.key
  · exact .number (Json.numberText_render_ofNat item.value.toNat)

namespace StateTable

def member (entry : StateId × List StateItem) : String × Json.Value :=
  (entry.1.display, .array (entry.2.map StateItem.toJson))

theorem proper_toJson (t : StateTable) : t.toJson.Proper := by
  refine .object fun m hm => ?_
  obtain ⟨entry, -, rfl⟩ := List.mem_map.mp hm
  refine .array fun v hv => ?_
  obtain ⟨item, -, rfl⟩ := List.mem_map.mp hv
  exact item.proper_toJson

theorem stateShown_member (entry : StateId × List StateItem) : StateShown entry (member entry) := by
  refine ⟨rfl, _, rfl, ?_⟩
  rw [List.forall₂_map_right_iff, List.forall₂_same]
  exact fun item _ => itemShown_toJson item

theorem statesShown (t : StateTable) :
    List.Forall₂ StateShown t.entries (t.entries.map member) := by
  rw [List.forall₂_map_right_iff, List.forall₂_same]
  exact fun entry _ => stateShown_member entry

theorem isText_print (t : StateTable) :
    Json.IsText t.print.toList (.object (t.entries.map member)) :=
  t.proper_toJson.isText

def itemText (item : StateItem) : List Char :=
  Json.bracketed '{' '}' 6 4
    [Json.named "key" (Json.shownString item.key), Json.named "value" item.value.toNat.repr.toList]

def stateText (entry : StateId × List StateItem) : List Char :=
  Json.named entry.1.toNat.repr (Json.bracketed '[' ']' 4 2 (entry.2.map itemText))

def text (t : StateTable) : List Char :=
  Json.bracketed '{' '}' 2 0 (t.entries.map stateText)

theorem render_toJson (item : StateItem) : Json.render 2 item.toJson = itemText item := by
  have hvalue : Json.render 3 (.number (.ofNat item.value.toNat)) =
      item.value.toNat.repr.toList := by
    rw [Json.render, Nat.toList_repr]
    simp [Json.NumberToken.render, Json.NumberToken.ofNat]
  have hkey : Json.render 3 (.string item.key) = Json.shownString item.key := by
    rw [Json.render, Json.quote_eq]
  rw [StateItem.toJson, Json.render_object, itemText]
  simp [Json.renderMember, hkey, hvalue]

theorem renderMember_member (entry : StateId × List StateItem) :
    Json.renderMember 1 (member entry) = stateText entry := by
  have hitems : (entry.2.map StateItem.toJson).map (Json.render 2) = entry.2.map itemText := by
    rw [List.map_map]
    exact List.map_congr_left fun item _ => render_toJson item
  rw [Json.renderMember, member, Json.render_array, hitems]
  rfl

theorem toList_print (t : StateTable) : t.print.toList = t.text := by
  have hmembers : (t.entries.map member).map (Json.renderMember 1) = t.entries.map stateText := by
    rw [List.map_map]
    exact List.map_congr_left fun entry _ => renderMember_member entry
  have hrender : Json.render 0 (.object (t.entries.map member)) = t.text := by
    rw [Json.render_object, hmembers]
    rfl
  rw [print, Json.Value.print, String.toList_ofList]
  exact hrender

theorem nodup_names {t : StateTable} (h : t.ids.Nodup) :
    ((t.entries.map member).map Prod.fst).Nodup := by
  have hnames : (t.entries.map member).map Prod.fst = t.ids.map StateId.display := by
    simp [ids, member, Function.comp_def]
  rw [hnames]
  exact h.map StateId.display_injective

/-- The text of a table is laid out as `text` says. It is JSON and stands for one object only, which
a reader finds. The members of the object are the states with their items, in the order of the
table, so no other table has the same text. -/
theorem print_readsBack {t : StateTable} (h : t.ids.Nodup) :
    t.print.toList = t.text ∧ ∃ members,
      Json.IsText t.print.toList (.object members) ∧
      (∀ v, Json.IsText t.print.toList v → v = .object members) ∧
      Json.read? t.print.toList = some (.object members) ∧
      List.Forall₂ StateShown t.entries members ∧
      (members.map Prod.fst).Nodup ∧
      ∀ u : StateTable, u.print = t.print → u = t := by
  have htext := t.isText_print
  refine ⟨t.toList_print, _, htext, fun v hv => hv.unique htext, t.proper_toJson.read?_print,
    t.statesShown, nodup_names h, ?_⟩
  intro u hprint
  have hmembers : Json.Value.object (u.entries.map member) = .object (t.entries.map member) :=
    (hprint ▸ u.isText_print).unique htext
  have hshown := u.statesShown
  rw [Json.Value.object.inj hmembers] at hshown
  have hentries : u.entries = t.entries := StateShown.leftUnique.forall₂ hshown t.statesShown
  rw [← mk.injEq] at hentries
  exact hentries

/-- Keys with a quote, a backslash, a control character and an accent, the greatest value, and a
state without items. -/
theorem print_readsBack_escaped :
    let items : List StateItem := [⟨"[ID, \"]", 0⟩, ⟨"[\\, \x01, é]", 18446744073709551615⟩]
    let t : StateTable := ⟨[(.ofNat 2, items), (.ofNat 0, [])]⟩
    t.ids.Nodup ∧ t.print.toList = t.text ∧ ∃ members,
      Json.IsText t.print.toList (.object members) ∧
      Json.read? t.print.toList = some (.object members) ∧
      List.Forall₂ StateShown t.entries members ∧
      ∀ u : StateTable, u.print = t.print → u = t := by
  intro items t
  have hids : t.ids.Nodup := by decide
  obtain ⟨hlayout, members, htext, -, hread, hshown, -, hinjective⟩ := print_readsBack hids
  exact ⟨hids, hlayout, members, htext, hread, hshown, hinjective⟩

end StateTable
end CursorState
