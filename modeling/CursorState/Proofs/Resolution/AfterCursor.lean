import CursorState.Engine.Counting
import CursorState.Proofs.Position.Cut
import CursorState.Proofs.Resolution.ParsedText

/-! What stands after the cursor has no influence on a query. -/
namespace CursorState

theorem resolve_parsedText_append (E : Engine) {w : TabWidth} {text s : List UInt8} {stop : Point}
    (hs : Detached (parsedText text stop w) s)
    (hend : effectiveLength text stop w = text.length → s = []) :
    effectiveLength (parsedText text stop w ++ s) stop w = effectiveLength text stop w ∧
      resolve E w (parsedText text stop w ++ s) stop = resolve E w text stop := by
  have hlength : effectiveLength (parsedText text stop w ++ s) stop w =
      effectiveLength text stop w := by
    simp only [parsedText, effectiveLength_eq_byteOffset] at hs hend ⊢
    exact byteOffset_take_append hs hend
  refine ⟨hlength, resolve_congr E hlength ?_⟩
  rw [parsedText, hlength, List.take_append_of_le_length (length_parsedText text stop w).ge,
    List.take_of_length_le (length_parsedText text stop w).le]

/-- Whatever follows the cursor, a query at any engine ends in the same way and with the same
length: on the text cut at the cursor, and, if bytes are left after the cursor, on the text with
others in their place that do not grow the last unit before it. -/
theorem resolve_independent_of_rest (E : Engine) (w : TabWidth) (text : List UInt8)
    (stop : Point) :
    (effectiveLength (parsedText text stop w) stop w = effectiveLength text stop w ∧
      resolve E w (parsedText text stop w) stop = resolve E w text stop) ∧
    (effectiveLength text stop w < text.length → ∀ s, Detached (parsedText text stop w) s →
      effectiveLength (parsedText text stop w ++ s) stop w = effectiveLength text stop w ∧
        resolve E w (parsedText text stop w ++ s) stop = resolve E w text stop) := by
  constructor
  · have h := resolve_parsedText_append E (.nil (parsedText text stop w)) fun _ => rfl
    rwa [List.append_nil] at h
  · intro hlt s hs
    exact resolve_parsedText_append E hs fun heq => absurd heq hlt.ne

/-- Behind a lone carriage return there may be anything but a line feed. -/
theorem resolve_independent_of_rest_carriageReturn :
    effectiveLength [0x61, 0x0D, 0x62] ⟨1, 3⟩ .standard < [0x61, 0x0D, 0x62].length ∧
      Detached (parsedText [0x61, 0x0D, 0x62] ⟨1, 3⟩ .standard) [0x21, 0x0A] ∧
      resolve countingEngine .standard
          (parsedText [0x61, 0x0D, 0x62] ⟨1, 3⟩ .standard ++ [0x21, 0x0A]) ⟨1, 3⟩ =
        resolve countingEngine .standard [0x61, 0x0D, 0x62] ⟨1, 3⟩ := by
  have hunits : units [0x61, 0x0D, 0x62] = [.character 0, .character 0, .character 0] := by
    simp [units, continuationLength]
  have hlength : effectiveLength [0x61, 0x0D, 0x62] ⟨1, 3⟩ .standard = 2 := by
    rw [effectiveLength_eq_byteOffset, byteOffset, hunits]
    decide
  have hlt : effectiveLength [0x61, 0x0D, 0x62] ⟨1, 3⟩ .standard < [0x61, 0x0D, 0x62].length := by
    rw [hlength]
    decide
  have hs : Detached (parsedText [0x61, 0x0D, 0x62] ⟨1, 3⟩ .standard) [0x21, 0x0A] := by
    rw [parsedText, hlength]
    refine ⟨fun c hc => ?_, by decide⟩
    obtain rfl := Option.some.inj hc
    decide
  exact ⟨hlt, hs, ((resolve_independent_of_rest countingEngine .standard _ _).2 hlt _ hs).2⟩

end CursorState
