import Linewise.Convert
import Linewise.Proofs.Lines

/-! Line ends. Main statement: whichever line feeds of a source get a `\r` before them, the source has
the same lines and is converted in the same way. -/
namespace Linewise

namespace Lines

/-- The line feeds with a chosen place get a `\r` before them. The first place is `start`. -/
def withReturnsFrom (chosen : Nat → Bool) : Nat → Text → Text
  | _, [] => []
  | start, c :: s =>
    if c == '\n' && chosen start then '\r' :: '\n' :: withReturnsFrom chosen (start + 1) s
    else c :: withReturnsFrom chosen (start + 1) s

/-- A source with `\r` before those of its line feeds that stand at a chosen place. -/
def withReturns (chosen : Nat → Bool) (source : Text) : Text :=
  withReturnsFrom chosen 0 source

theorem head?_withReturnsFrom (chosen : Nat → Bool) (start : Nat) {s : Text}
    (h : s.head? ≠ some '\n') : (withReturnsFrom chosen start s).head? ≠ some '\n' := by
  cases s with
  | nil => simp [withReturnsFrom]
  | cons c s =>
      have hc : c ≠ '\n' := by simpa using h
      simp [withReturnsFrom, hc]

theorem unifyEnds_withReturnsFrom (chosen : Nat → Bool) (start : Nat) {s : Text}
    (h : ¬ "\r\n".toList <:+: s) : unifyEnds (withReturnsFrom chosen start s) = s := by
  induction s generalizing start with
  | nil => rfl
  | cons c s ih =>
      have hrest := ih (start + 1) fun hpart => h (List.infix_cons hpart)
      -- The source has no `\r\n`, so a `\r` of its own is not followed by a line feed.
      have hreturn : c = '\r' → s.head? ≠ some '\n' := by
        rintro rfl hhead
        obtain ⟨t, rfl⟩ := List.head?_eq_some_iff.mp hhead
        exact h ⟨[], t, rfl⟩
      rw [withReturnsFrom]
      split
      · rename_i hfeed
        obtain rfl : c = '\n' := (by simpa using hfeed : c = '\n' ∧ _).1
        rw [unifyEnds, hrest]
      · rw [unifyEnds_cons fun hc => head?_withReturnsFrom chosen (start + 1) (hreturn hc), hrest]

theorem unifyEnds_withReturns (chosen : Nat → Bool) {source : Text}
    (h : ¬ "\r\n".toList <:+: source) : unifyEnds (withReturns chosen source) = source :=
  unifyEnds_withReturnsFrom chosen 0 h

end Lines

/-- A source without `\r\n` keeps its lines when any of its line feeds become `\r\n`, whatever other
`\r` it holds, and the conversion reports, writes and refuses the same. -/
theorem convert_withReturns {source : Text} (h : ¬ "\r\n".toList <:+: source) (chosen : Nat → Bool) :
    Lines.ofText (Lines.withReturns chosen source) = Lines.ofText source ∧
    ∀ options, convert options (Lines.withReturns chosen source) = convert options source := by
  have hlines : Lines.ofText (Lines.withReturns chosen source) = Lines.ofText source := by
    rw [Lines.ofText, Lines.ofText, Lines.unifyEnds_withReturns chosen h,
      Lines.unifyEnds_of_not_isInfix h]
  refine ⟨hlines, ?_⟩
  intro options
  rw [convert, convert, hlines]

theorem convert_withReturns_mixed :
    ¬ "\r\n".toList <:+: "a\rb\nx := 1\nc\r".toList ∧
    Lines.withReturns (fun place => place == 3) "a\rb\nx := 1\nc\r".toList =
      "a\rb\r\nx := 1\nc\r".toList ∧
    (convert { keepFinalLine := true } "a\rb\r\nx := 1\nc\r".toList).outcome =
      .ok "a\rb\nvar x = 1\nc\r".toList := by
  have hsource : ¬ "\r\n".toList <:+: "a\rb\nx := 1\nc\r".toList := by decide
  have hmixed : Lines.withReturns (fun place => place == 3) "a\rb\nx := 1\nc\r".toList =
      "a\rb\r\nx := 1\nc\r".toList := by decide
  refine ⟨hsource, hmixed, ?_⟩
  rw [← hmixed, (convert_withReturns hsource _).2]
  decide +kernel

end Linewise
