import CursorState.Proofs.StateTable.LineGrammar
import CursorState.Proofs.StateTable.SymbolList
import CursorState.Proofs.Text.Decimal
import CursorState.Proofs.Text.Lines
import CursorState.StateTable.Dump

/-! Writing dumps: blocks of items under the header of their state, and the lines they are written
in. -/
namespace CursorState
open Text

inductive SymbolKind where
  | terminal
  | nonterminal
  deriving DecidableEq, Repr

def SymbolKind.marker : SymbolKind → String
  | terminal => "T"
  | nonterminal => "NT"

/-- The name of a grammar symbol, such as can be told from its neighbours in a list. Brackets,
colons and digits may be part of it. -/
structure SymbolName where
  text : String
  nonempty : text.toList ≠ []
  trimmed : Trimmed text.toList
  comma : ',' ∉ text.toList
  lineBreak : ∀ c ∈ text.toList, isLineBreak c = false
  marker : ∀ kind : SymbolKind, text ≠ kind.marker

theorem SymbolName.text_injective : Function.Injective SymbolName.text := by
  rintro ⟨text, -⟩ ⟨text', -⟩ rfl
  rfl

structure DumpItem where
  symbols : List (SymbolKind × SymbolName)
  value : UInt64

/-- Items under one header. There may be several blocks for one state. -/
structure DumpBlock where
  id : StateId
  items : List DumpItem

def DumpItem.parts (x : DumpItem) : List String :=
  x.symbols.flatMap fun (kind, name) => [kind.marker, name.text]

def DumpItem.render (x : DumpItem) : String :=
  "  [" ++ ", ".intercalate x.parts ++ "] : " ++ x.value.toNat.repr

def DumpBlock.header (b : DumpBlock) : String :=
  "State " ++ b.id.toNat.repr

def DumpBlock.lines (b : DumpBlock) : List String :=
  b.header :: b.items.map DumpItem.render

def renderDump (blocks : List DumpBlock) : String :=
  String.join ((blocks.flatMap DumpBlock.lines).map (· ++ "\n"))

def symbolKey (names : List SymbolName) : String :=
  "[" ++ ", ".intercalate (names.map SymbolName.text) ++ "]"

/-- What an item says: its symbols without their markers, and its value. -/
def DumpItem.content (x : DumpItem) : StateItem :=
  ⟨symbolKey (x.symbols.map Prod.snd), x.value⟩

def DumpBlock.contents (b : DumpBlock) : List StateItem :=
  b.items.map DumpItem.content

def DumpBlock.entry (b : DumpBlock) : StateId × List StateItem :=
  (b.id, b.contents)

/-- The states in the order of their first blocks, each with the items of all its blocks. -/
def blockTable (blocks : List DumpBlock) : StateTable :=
  ⟨(blocks.map DumpBlock.id).eraseDups.map fun id =>
    (id, (blocks.filter fun b => b.id = id).flatMap DumpBlock.contents)⟩

section Parts

theorem SymbolKind.trimmed (kind : SymbolKind) : Trimmed kind.marker.toList := by
  cases kind <;> constructor <;> simp [marker, isBlank]

theorem SymbolKind.isMarker (kind : SymbolKind) : isMarker kind.marker.toList := by
  cases kind <;> rfl

theorem SymbolName.not_isMarker (name : SymbolName) : isMarker name.text.toList = false := by
  rw [Bool.eq_false_iff]
  intro h
  simp only [CursorState.isMarker, Bool.or_eq_true, beq_iff_eq] at h
  rcases h with h | h
  · exact name.marker .terminal (String.toList_injective h)
  · exact name.marker .nonterminal (String.toList_injective h)

theorem symbolKey_injective : Function.Injective symbolKey := by
  have hread (names : List SymbolName) :
      symbols ([',', ' '].intercalate (names.map fun name => name.text.toList)) =
        names.map fun name => name.text.toList := by
    rw [symbols_intercalate (List.forall_mem_map.mpr fun name _ => name.comma)
      (List.forall_mem_map.mpr fun name _ => name.trimmed), List.filter_eq_self,
      List.forall_mem_map]
    intro name _
    simp [name.not_isMarker, name.nonempty]
  intro names names' h
  have hchars : [',', ' '].intercalate (names.map fun name => name.text.toList) =
      [',', ' '].intercalate (names'.map fun name => name.text.toList) := by
    have h' := congrArg String.toList h
    simpa [symbolKey, Function.comp_def] using h'
  have hnames := hread names
  rw [hchars, hread names'] at hnames
  refine (List.map_inj_right fun name name' h' => ?_).mp hnames.symm
  exact SymbolName.text_injective (String.toList_injective h')

variable (x : DumpItem)

theorem DumpItem.parts_forall {P : String → Prop} (hkind : ∀ kind : SymbolKind, P kind.marker)
    (hname : ∀ name : SymbolName, P name.text) : ∀ part ∈ x.parts, P part := by
  intro part hpart
  obtain ⟨⟨kind, name⟩, -, hpart⟩ := List.mem_flatMap.mp hpart
  simp only [List.mem_cons, List.not_mem_nil, or_false] at hpart
  rcases hpart with rfl | rfl
  · exact hkind kind
  · exact hname name

theorem DumpItem.filter_parts :
    (x.parts.map String.toList).filter (fun part => !part.isEmpty && !isMarker part) =
      (x.symbols.map Prod.snd).map fun name => name.text.toList := by
  rw [DumpItem.parts]
  induction x.symbols with
  | nil => rfl
  | cons symbol symbols ih =>
    obtain ⟨kind, name⟩ := symbol
    have hname : name.text.toList.isEmpty = false := by simpa using name.nonempty
    simp only [List.flatMap_cons, List.map_append, List.filter_append, ih]
    simp [kind.isMarker, name.not_isMarker, hname]

end Parts
end CursorState
