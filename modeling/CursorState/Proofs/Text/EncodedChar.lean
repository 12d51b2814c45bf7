import CursorState.Text.Utf8

/-! The bytes of a character: either one below 80, or one from C0 on and continuation bytes. -/
namespace CursorState.Text

theorem encode_cons (c : Char) (cs : List Char) :
    encode (c :: cs) = String.utf8EncodeChar c ++ encode cs := rfl

theorem encode_append (cs ds : List Char) : encode (cs ++ ds) = encode cs ++ encode ds :=
  List.flatMap_append

inductive EncodedAs (c : Char) : List UInt8 → Prop
  | ascii (low : c.toNat < 0x80) : EncodedAs c [UInt8.ofNat c.toNat]
  | lead {b : UInt8} {tail : List UInt8} (high : 0xC0 ≤ b)
      (inside : ∀ x ∈ tail, 0x80 ≤ x ∧ x ≤ 0xBF) : EncodedAs c (b :: tail)

theorem lead_le {n k : Nat} (hk : 0xC0 ≤ k) (hn : n + k < 0x100) : 0xC0 ≤ UInt8.ofNat (n + k) := by
  rw [UInt8.le_iff_toNat_le, UInt8.toNat_ofNat_of_lt' hn]
  exact Nat.le_add_left_of_le hk

theorem continuation_mod (n : Nat) :
    0x80 ≤ UInt8.ofNat (n % 0x40 + 0x80) ∧ UInt8.ofNat (n % 0x40 + 0x80) ≤ 0xBF := by
  have hn : n % 0x40 + 0x80 < 0x100 := by omega
  rw [UInt8.le_iff_toNat_le, UInt8.le_iff_toNat_le, UInt8.toNat_ofNat_of_lt' hn]
  change 128 ≤ _ ∧ _ ≤ 191
  omega

theorem encodedAs (c : Char) : EncodedAs c (String.utf8EncodeChar c) := by
  fun_cases String.utf8EncodeChar c with
  | case1 v h => exact .ascii (Nat.lt_succ_of_le h)
  | case2 v _ h =>
    refine .lead (lead_le (by decide) (by omega)) ?_
    exact List.forall_mem_singleton.mpr (continuation_mod v)
  | case3 v _ _ h =>
    refine .lead (lead_le (by decide) (by omega)) (List.forall_mem_cons.mpr ?_)
    exact ⟨continuation_mod _, List.forall_mem_singleton.mpr (continuation_mod v)⟩
  | case4 v _ _ h =>
    refine .lead (lead_le (by decide) (by omega)) (List.forall_mem_cons.mpr ?_)
    exact ⟨continuation_mod _, List.forall_mem_cons.mpr
      ⟨continuation_mod _, List.forall_mem_singleton.mpr (continuation_mod v)⟩⟩

theorem toNat_ofNat_low {n : Nat} (h : n < 0x80) : (UInt8.ofNat n).toNat = n :=
  UInt8.toNat_ofNat_of_lt' (Nat.lt_trans h (by decide))

theorem eq_of_ofNat_eq {c d : Char} (hc : c.toNat < 0x80) (hd : d.toNat < 0x80)
    (h : UInt8.ofNat c.toNat = UInt8.ofNat d.toNat) : c = d := by
  have h' := congrArg UInt8.toNat h
  rw [toNat_ofNat_low hc, toNat_ofNat_low hd] at h'
  exact Char.toNat_inj.mp h'

theorem head_of_mem_head?_encode {c : Char} {cs : List Char} {b : UInt8}
    (h : b ∈ (encode (c :: cs)).head?) :
    c.toNat < 0x80 ∧ b = UInt8.ofNat c.toNat ∨ 0xC0 ≤ b := by
  rw [encode_cons] at h
  generalize hbytes : String.utf8EncodeChar c = bytes at h
  cases hbytes ▸ encodedAs c with
  | ascii low => exact .inl ⟨low, (Option.some.inj h).symm⟩
  | lead high inside => exact .inr (Option.some.inj h ▸ high)

theorem head?_encode (cs : List Char) : ∀ b ∈ (encode cs).head?, ¬ (0x80 ≤ b ∧ b ≤ 0xBF) := by
  cases cs with
  | nil => exact fun b hb => by cases hb
  | cons c cs =>
    rintro b hb ⟨hlow, hhigh⟩
    rcases head_of_mem_head?_encode hb with ⟨low, rfl⟩ | high
    · rw [UInt8.le_iff_toNat_le, toNat_ofNat_low low] at hlow
      exact absurd low (Nat.not_lt.mpr hlow)
    · exact absurd (UInt8.le_trans high hhigh) (by decide)

theorem head?_eq_lineFeed {cs : List Char} (h : (encode cs).head? = some 0x0A) :
    cs.head? = some '\n' := by
  cases cs with
  | nil => cases h
  | cons c cs =>
    rcases head_of_mem_head?_encode h with ⟨low, hb⟩ | high
    · have hc : c = '\n' := eq_of_ofNat_eq low (by decide) hb.symm
      rw [hc]
      rfl
    · exact absurd high (by decide)

end CursorState.Text
