import Mathlib.Order.Bounds.Basic
import Mathlib.Order.MinMax
import CursorState.Text.EditDistance

/-! Edits of one character, and how many of them turn a text into another. The recursive distance is
the least number of them. -/
namespace CursorState.Text

inductive Edit : List Char → List Char → Prop
  | insert (before after : List Char) (c : Char) : Edit (before ++ after) (before ++ c :: after)
  | delete (before after : List Char) (c : Char) : Edit (before ++ c :: after) (before ++ after)
  | replace (before after : List Char) (c d : Char) :
      Edit (before ++ c :: after) (before ++ d :: after)

/-- `Edits n s t`: `n` edits, one after the other, turn `s` into `t`. -/
inductive Edits : Nat → List Char → List Char → Prop
  | done (s : List Char) : Edits 0 s s
  | step {n : Nat} {s s' t : List Char} (first : Edit s s') (rest : Edits n s' t) :
      Edits (n + 1) s t

/-- The distance by recursion on the two texts: the first characters are put one in the place of the
other, or the first one is deleted, or the second one is inserted. -/
def distance : List Char → List Char → Nat
  | [], t => t.length
  | s, [] => s.length
  | a :: s, b :: t =>
    min (min (distance s t + substitution a b) (distance (a :: s) t + 1)) (distance s (b :: t) + 1)
  termination_by s t => s.length + t.length

@[simp] theorem distance_nil_left (t : List Char) : distance [] t = t.length := by
  simp [distance]

@[simp] theorem distance_nil_right (s : List Char) : distance s [] = s.length := by
  cases s <;> simp [distance]

theorem distance_cons_cons (a b : Char) (s t : List Char) :
    distance (a :: s) (b :: t) =
      min (min (distance s t + substitution a b) (distance (a :: s) t + 1))
        (distance s (b :: t) + 1) := by
  rw [distance]

@[simp] theorem substitution_self (a : Char) : substitution a a = 0 := if_pos rfl

theorem substitution_le (a b : Char) : substitution a b ≤ 1 := by
  unfold substitution
  split <;> omega

/-! One edit changes the distance by one at most -/

theorem distance_insert_le (s t : List Char) (b : Char) : distance s (b :: t) ≤ distance s t + 1 := by
  cases s with
  | nil => simp
  | cons a s =>
    rw [distance_cons_cons]
    omega

theorem distance_delete_le (s t : List Char) (a : Char) : distance (a :: s) t ≤ distance s t + 1 := by
  cases t with
  | nil => simp
  | cons b t =>
    rw [distance_cons_cons]
    omega

theorem distance_le_cons (s t : List Char) (a : Char) : distance s t ≤ distance (a :: s) t + 1 := by
  induction t with
  | nil =>
    simp only [distance_nil_right, List.length_cons]
    omega
  | cons b t ih =>
    have hinsert := distance_insert_le s t b
    rw [distance_cons_cons]
    omega

theorem distance_replace_le (s t : List Char) (a a' : Char) :
    distance (a :: s) t ≤ distance (a' :: s) t + 1 := by
  induction t with
  | nil => simp
  | cons b t ih =>
    have hcost := substitution_le a b
    rw [distance_cons_cons, distance_cons_cons]
    omega

theorem distance_cons_le_of_le {s s' : List Char} (h : ∀ t, distance s t ≤ distance s' t + 1)
    (a : Char) (t : List Char) : distance (a :: s) t ≤ distance (a :: s') t + 1 := by
  induction t with
  | nil => simpa using h []
  | cons b t ih =>
    have hdiagonal := h t
    have habove := h (b :: t)
    rw [distance_cons_cons, distance_cons_cons]
    omega

theorem Edit.distance_le {s s' : List Char} (h : Edit s s') (t : List Char) :
    distance s t ≤ distance s' t + 1 := by
  have hcommon (before : List Char) {s s' : List Char}
      (h : ∀ t, distance s t ≤ distance s' t + 1) :
      ∀ t, distance (before ++ s) t ≤ distance (before ++ s') t + 1 := by
    induction before with
    | nil => exact h
    | cons a before ih => exact distance_cons_le_of_le ih a
  cases h with
  | insert before after c => exact hcommon before (fun t => distance_le_cons after t c) t
  | delete before after c => exact hcommon before (fun t => distance_delete_le after t c) t
  | replace before after c d => exact hcommon before (fun t => distance_replace_le after t c d) t

theorem distance_self (s : List Char) : distance s s = 0 := by
  induction s with
  | nil => exact distance_nil_left []
  | cons a s ih => simp [distance_cons_cons, ih]

theorem Edits.distance_le {n : Nat} {s t : List Char} (h : Edits n s t) : distance s t ≤ n := by
  induction h with
  | done s => exact (distance_self s).le
  | step first _ ih => exact (first.distance_le _).trans (Nat.succ_le_succ ih)

/-! As many edits as the distance -/

theorem Edit.cons {s s' : List Char} (h : Edit s s') (a : Char) : Edit (a :: s) (a :: s') := by
  cases h with
  | insert before after c => exact .insert (a :: before) after c
  | delete before after c => exact .delete (a :: before) after c
  | replace before after c d => exact .replace (a :: before) after c d

theorem Edits.cons {n : Nat} {s t : List Char} (h : Edits n s t) (a : Char) :
    Edits n (a :: s) (a :: t) := by
  induction h with
  | done s => exact .done (a :: s)
  | step first _ ih => exact .step (first.cons a) ih

theorem Edits.insert {n : Nat} {s t : List Char} (h : Edits n s t) (b : Char) :
    Edits (n + 1) s (b :: t) :=
  .step (.insert [] s b) (h.cons b)

theorem Edits.delete {n : Nat} {s t : List Char} (h : Edits n s t) (a : Char) :
    Edits (n + 1) (a :: s) t :=
  .step (.delete [] s a) h

theorem Edits.replace {n : Nat} {s t : List Char} (h : Edits n s t) (a b : Char) :
    Edits (n + substitution a b) (a :: s) (b :: t) := by
  by_cases hab : a = b
  · subst hab
    rw [substitution_self]
    exact h.cons a
  · rw [substitution, if_neg hab]
    exact .step (.replace [] s a b) (h.cons b)

theorem edits_nil_left (t : List Char) : Edits t.length [] t := by
  induction t with
  | nil => exact .done []
  | cons b t ih => exact ih.insert b

theorem edits_nil_right (s : List Char) : Edits s.length s [] := by
  induction s with
  | nil => exact .done []
  | cons a s ih => exact ih.delete a

theorem edits_distance (s t : List Char) : Edits (distance s t) s t := by
  fun_induction distance s t with
  | case1 t => exact edits_nil_left t
  | case2 s => exact edits_nil_right s
  | case3 a s b t hdiagonal hleft habove =>
    have hreplace := hdiagonal.replace a b
    have hinsert := hleft.insert b
    have hdelete := habove.delete a
    exact min_rec' (Edits · (a :: s) (b :: t))
      (min_rec' (Edits · (a :: s) (b :: t)) hreplace hinsert) hdelete

theorem isLeast_distance (s t : List Char) : IsLeast {n | Edits n s t} (distance s t) :=
  ⟨edits_distance s t, fun _ h => h.distance_le⟩

/-! Texts read backwards -/

theorem Edit.reverse {s s' : List Char} (h : Edit s s') : Edit s.reverse s'.reverse := by
  cases h with
  | insert before after c => simpa using Edit.insert after.reverse before.reverse c
  | delete before after c => simpa using Edit.delete after.reverse before.reverse c
  | replace before after c d => simpa using Edit.replace after.reverse before.reverse c d

theorem Edits.reverse {n : Nat} {s t : List Char} (h : Edits n s t) :
    Edits n s.reverse t.reverse := by
  induction h with
  | done s => exact .done s.reverse
  | step first _ ih => exact .step first.reverse ih

theorem distance_reverse (s t : List Char) : distance s.reverse t.reverse = distance s t := by
  refine le_antisymm (edits_distance s t).reverse.distance_le ?_
  simpa using (edits_distance s.reverse t.reverse).reverse.distance_le

/-- The recursion holds for the last characters as it does for the first. -/
theorem distance_concat_concat (s t : List Char) (a b : Char) :
    distance (s ++ [a]) (t ++ [b]) =
      min (min (distance s t + substitution a b) (distance (s ++ [a]) t + 1))
        (distance s (t ++ [b]) + 1) := by
  have h := distance_cons_cons a b s.reverse t.reverse
  rw [← distance_reverse s t, ← distance_reverse (s ++ [a]) (t ++ [b]),
    ← distance_reverse (s ++ [a]) t, ← distance_reverse s (t ++ [b])]
  simpa using h

end CursorState.Text
