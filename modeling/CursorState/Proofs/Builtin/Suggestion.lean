import Mathlib.Data.Prod.Lex
import Mathlib.Data.String.Basic
import CursorState.Language
import CursorState.Proofs.Text.EditDistance

/-! Names that are suggested for a text: the nearest ones within two edits, and of those the first in
the alphabet. A name that is suggested is found among the languages. -/
namespace CursorState
open Text

/-- `name` is the name of an enabled language within two edits of `input`. No other is nearer, and
those as near come later in the alphabet. -/
structure NearestName (enabled : List Builtin) (input : List Char) (name : String) : Prop where
  listed : ∃ l ∈ enabled, l.name = name
  within : distance name.toList input ≤ 2
  nearest : ∀ l ∈ enabled, distance name.toList input ≤ distance l.name.toList input
  first : ∀ l ∈ enabled, distance l.name.toList input = distance name.toList input → name ≤ l.name

namespace Builtin

/-! The least candidate -/

theorem toLex_betterCandidate (a b : Nat × String) :
    toLex (betterCandidate a b) = min (toLex a) (toLex b) := by
  have hlt : toLex b < toLex a ↔ b.1 < a.1 ∨ b.1 = a.1 ∧ b.2 < a.2 := Prod.Lex.toLex_lt_toLex
  unfold betterCandidate
  by_cases h : toLex b < toLex a
  · rw [if_pos (hlt.mp h), min_eq_right h.le]
  · rw [if_neg (mt hlt.mpr h), min_eq_left (not_lt.mp h)]

theorem map_toLex_bestCandidate (cs : List (Nat × String)) :
    (bestCandidate cs).map toLex = (cs.map toLex).min? := by
  cases cs with
  | nil => rfl
  | cons c cs =>
    have hfold : cs.foldl (fun x d => min x (toLex d)) (toLex c) =
        toLex (cs.foldl betterCandidate c) :=
      List.foldl_hom toLex fun a b => (toLex_betterCandidate a b).symm
    rw [List.map_cons, List.min?_cons', List.foldl_map, hfold, bestCandidate, Option.map_some]

theorem bestCandidate_eq_some_iff {cs : List (Nat × String)} {c : Nat × String} :
    bestCandidate cs = some c ↔ c ∈ cs ∧ ∀ d ∈ cs, toLex c ≤ toLex d := by
  have h := @List.min?_eq_some_iff _ (toLex c) _ _ (cs.map toLex) _ _
  rw [← map_toLex_bestCandidate, List.forall_mem_map] at h
  simpa using h

/-! The nearest name -/

variable {enabled : List Builtin} {input : List Char} {name : String}

theorem mem_candidates_iff {c : Nat × String} :
    c ∈ candidates enabled input ↔
      ∃ l ∈ enabled, distance l.name.toList input ≤ 2 ∧
        c = (distance l.name.toList input, l.name) := by
  simp only [candidates, List.mem_filter, List.mem_map, editDistance_eq_distance]
  constructor
  · rintro ⟨⟨l, hl, rfl⟩, hle⟩
    exact ⟨l, hl, of_decide_eq_true hle, rfl⟩
  · rintro ⟨l, hl, hle, rfl⟩
    exact ⟨⟨l, hl, rfl⟩, decide_eq_true hle⟩

theorem nearest?_eq_some_iff :
    nearest? enabled input = some name ↔ NearestName enabled input name := by
  simp only [nearest?, Option.map_eq_some_iff, bestCandidate_eq_some_iff, mem_candidates_iff]
  constructor
  · rintro ⟨c, ⟨⟨l, hl, hwithin, rfl⟩, hleast⟩, rfl⟩
    have hbefore : ∀ l' ∈ enabled, distance l'.name.toList input ≤ 2 →
        distance l.name.toList input < distance l'.name.toList input ∨
          distance l.name.toList input = distance l'.name.toList input ∧ l.name ≤ l'.name :=
      fun l' hl' hwithin' => Prod.Lex.toLex_le_toLex.mp (hleast _ ⟨l', hl', hwithin', rfl⟩)
    refine ⟨⟨l, hl, rfl⟩, hwithin, fun l' hl' => ?_, fun l' hl' heq => ?_⟩
    · rcases Nat.lt_or_ge 2 (distance l'.name.toList input) with hfar | hnear
      · exact hwithin.trans hfar.le
      · rcases hbefore l' hl' hnear with hlt | ⟨heq, -⟩
        · exact hlt.le
        · exact heq.le
    · rcases hbefore l' hl' (heq.le.trans hwithin) with hlt | ⟨-, hle⟩
      · exact absurd heq hlt.ne'
      · exact hle
  · rintro ⟨⟨l, hl, rfl⟩, hwithin, hnearest, hfirst⟩
    refine ⟨_, ⟨⟨l, hl, hwithin, rfl⟩, ?_⟩, rfl⟩
    rintro d ⟨l', hl', -, rfl⟩
    rw [Prod.Lex.toLex_le_toLex]
    rcases (hnearest l' hl').lt_or_eq with hlt | heq
    · exact .inl hlt
    · exact .inr ⟨heq, hfirst l' hl' heq.symm⟩

theorem exists_nearest?_iff :
    (∃ name, nearest? enabled input = some name) ↔
      ∃ l ∈ enabled, distance l.name.toList input ≤ 2 := by
  constructor
  · rintro ⟨name, h⟩
    obtain ⟨⟨l, hl, rfl⟩, hwithin, -, -⟩ := nearest?_eq_some_iff.mp h
    exact ⟨l, hl, hwithin⟩
  · rintro ⟨l, hl, hwithin⟩
    have hc := mem_candidates_iff.mpr ⟨l, hl, hwithin, rfl⟩
    obtain ⟨c, cs, hcs⟩ := List.exists_cons_of_ne_nil (List.ne_nil_of_mem hc)
    exact ⟨_, by rw [nearest?, hcs, bestCandidate, Option.map_some]⟩

theorem nearest?_congr {listed : List Builtin} (h : ∀ l, l ∈ listed ↔ l ∈ enabled) :
    nearest? listed input = nearest? enabled input := by
  have hname (name : String) :
      NearestName listed input name ↔ NearestName enabled input name := by
    constructor
    · rintro ⟨hlisted, hwithin, hnearest, hfirst⟩
      simp only [h] at hlisted hnearest hfirst
      exact ⟨hlisted, hwithin, hnearest, hfirst⟩
    · rintro ⟨hlisted, hwithin, hnearest, hfirst⟩
      simp only [← h] at hlisted hnearest hfirst
      exact ⟨hlisted, hwithin, hnearest, hfirst⟩
  refine Option.ext fun name => ?_
  rw [nearest?_eq_some_iff, nearest?_eq_some_iff, hname]

/-! Names of languages -/

theorem asciiLowerCase_name (l : Builtin) : asciiLowerCase l.name = l.name := by
  rw [← String.toList_inj, asciiLowerCase, String.toList_map]
  cases l <;> decide

theorem goesBy_name (l m : Builtin) : m.goesBy l.name = decide (m = l) := by
  rw [goesBy, asciiLowerCase_name]
  cases l <;> cases m <;> decide

theorem ofName?_name {l : Builtin} (h : l ∈ enabled) : ofName? enabled l.name = some l := by
  have hown : l.goesBy l.name := by simp [goesBy_name]
  have hfound : (ofName? enabled l.name).isSome := List.find?_isSome.mpr ⟨l, h, hown⟩
  obtain ⟨m, hm⟩ := Option.isSome_iff_exists.mp hfound
  have hgoes := List.find?_some hm
  rw [goesBy_name, decide_eq_true_eq] at hgoes
  rwa [hgoes] at hm

/-- A name is suggested exactly if some enabled language has a name within two edits of the text in
lower case. The suggestion is the nearest one, and of those as near the first in the alphabet, in
whatever order the languages are listed; and its language is found by it. -/
theorem suggest?_nearest (lower : List Char → List Char) (enabled : List Builtin) (s : String) :
    ((∃ name, suggest? lower enabled s = some name) ↔
        ∃ l ∈ enabled, distance l.name.toList (lower s.toList) ≤ 2) ∧
      (∀ name, suggest? lower enabled s = some name →
        NearestName enabled (lower s.toList) name ∧
          ∃ l, ofName? enabled name = some l ∧ l.name = name) ∧
      ∀ listed : List Builtin, (∀ l, l ∈ listed ↔ l ∈ enabled) →
        suggest? lower listed s = suggest? lower enabled s := by
  refine ⟨exists_nearest?_iff, fun name h => ?_, fun listed h => nearest?_congr h⟩
  have hnearest := nearest?_eq_some_iff.mp h
  obtain ⟨l, hl, rfl⟩ := hnearest.listed
  exact ⟨hnearest, l, ofName?_name hl, rfl⟩

/-- Two names are as near. -/
example : nearest? [.python, .rust, .lua, .go, .c] "gc".toList = some "c" := by decide

/-! The two small sigmas -/

theorem distance_map_right {f : Char → Char} {source : List Char}
    (h : ∀ a ∈ source, ∀ b, a = f b ↔ a = b) (target : List Char) :
    distance source (target.map f) = distance source target := by
  fun_induction distance source target with
  | case1 target => simp
  | case2 source => simp
  | case3 a s b t hdiagonal hleft habove =>
    obtain ⟨ha, hs⟩ := List.forall_mem_cons.mp h
    have hcost : substitution a (f b) = substitution a b := by simp only [substitution, ha]
    rw [List.map_cons, distance_cons_cons, hcost, hdiagonal hs, hleft h, ← List.map_cons, habove hs]

/-- The small sigma that stands at the end of a word, in the form that stands elsewhere. -/
def plainSigma (c : Char) : Char :=
  if c = 'ς' then 'σ' else c

theorem toNat_lt_of_mem_name {l : Builtin} {c : Char} (h : c ∈ l.name.toList) : c.toNat < 128 := by
  have hall : l.name.toList.all (·.toNat < 128) := by cases l <;> decide
  exact of_decide_eq_true (List.all_eq_true.mp hall c h)

theorem nearest?_map_plainSigma (enabled : List Builtin) (input : List Char) :
    nearest? enabled (input.map plainSigma) = nearest? enabled input := by
  have hname (l : Builtin) : ∀ a ∈ l.name.toList, ∀ b, a = plainSigma b ↔ a = b := by
    intro a ha b
    have hascii := toNat_lt_of_mem_name ha
    have hfinal : a ≠ 'ς' := fun h => absurd (h ▸ hascii) (by decide)
    have hsigma : a ≠ 'σ' := fun h => absurd (h ▸ hascii) (by decide)
    by_cases hb : b = 'ς'
    · simp [plainSigma, hb, hfinal, hsigma]
    · simp [plainSigma, hb]
  simp only [nearest?, candidates, editDistance_eq_distance, distance_map_right (hname _)]

/-- How a lower case puts the sigma at the end of a word makes no difference. -/
theorem suggest?_congr {lower lower' : List Char → List Char}
    (h : ∀ cs, (lower' cs).map plainSigma = (lower cs).map plainSigma) (enabled : List Builtin)
    (s : String) : suggest? lower' enabled s = suggest? lower enabled s := by
  rw [suggest?, suggest?, ← nearest?_map_plainSigma, h, nearest?_map_plainSigma]

end Builtin

/-! The default build -/

theorem Language.map_builtin_ofName? (s : String) :
    (ofName? s).map builtin = Builtin.ofName? (all.map builtin) s := by
  rw [ofName?, Builtin.ofName?, List.find?_map]
  rfl

/-- Whoever follows a suggestion names a language. -/
theorem Language.exists_ofName?_of_suggest? {s name : String} (h : suggest? s = some name) :
    ∃ l, ofName? name = some l ∧ l.name = name := by
  obtain ⟨b, hb, rfl⟩ := (Builtin.nearest?_eq_some_iff.mp h).listed
  have hfound := map_builtin_ofName? b.name
  rw [Builtin.ofName?_name hb, Option.map_eq_some_iff] at hfound
  obtain ⟨l, hl, rfl⟩ := hfound
  exact ⟨l, hl, rfl⟩

end CursorState
