import Linewise.Text.Rule
import Linewise.Text.Word

/-! Rules for constructs that begin with a word. -/
namespace Linewise

namespace Rule

/-- Whether the rule cannot read a construct inside a word at whose head it reads none. -/
def BeginsWithWord (rule : Rule) : Prop :=
  ∀ (c d : Char) (s : Text), isWord c = true → isWord d = true →
    rule (c :: d :: s) = none → rule (d :: s) = none

/-- Leaves out `skip` characters, then goes on as `applyWords`. If `inside`, the rule failed at the
head of a word that goes on here. -/
def applyWordsFrom (rule : Rule) : Nat → Bool → Text → Text
  | _, _, [] => []
  | skip + 1, _, _ :: s => applyWordsFrom rule skip false s
  | 0, inside, c :: s =>
    if inside && isWord c then c :: applyWordsFrom rule 0 true s
    else
      match rule (c :: s) with
      | some (written, rest) => written ++ applyWordsFrom rule (s.length - rest.length) false s
      | none => c :: applyWordsFrom rule 0 (isWord c) s

/-- Replaces the construct as `applyAll` does, but tries each word only at its head. -/
def applyWords (rule : Rule) (s : Text) : Text :=
  rule.applyWordsFrom 0 false s

theorem applyWordsFrom_eq {rule : Rule} (hrule : rule.BeginsWithWord) (skip : Nat) (inside : Bool)
    (s : Text) (h : inside = true → s.head?.any isWord = true → rule s = none) :
    rule.applyWordsFrom skip inside s = rule.applyFrom skip s := by
  induction s generalizing skip inside with
  | nil => cases skip <;> rfl
  | cons c s ih =>
      cases skip with
      | succ skip => exact ih skip false (by simp)
      | zero =>
          have hnext (hc : isWord c = true) (hn : rule (c :: s) = none) :
              s.head?.any isWord = true → rule s = none := by
            intro hs
            cases s with
            | nil => simp at hs
            | cons d s => exact hrule c d s hc (by simpa using hs) hn
          by_cases hin : (inside && isWord c) = true
          · obtain ⟨hi, hc⟩ := Bool.and_eq_true_iff.mp hin
            have hn := h hi (by simpa using hc)
            simp only [applyWordsFrom, applyFrom, hin, hn, ↓reduceIte]
            rw [ih 0 true (fun _ => hnext hc hn)]
          · cases hr : rule (c :: s) with
            | some found =>
                simp only [applyWordsFrom, applyFrom, hin, hr, Bool.false_eq_true, ↓reduceIte]
                rw [ih _ false (by simp)]
            | none =>
                simp only [applyWordsFrom, applyFrom, hin, hr, Bool.false_eq_true, ↓reduceIte]
                rw [ih 0 (isWord c) (fun hc => hnext hc hr)]

theorem applyWords_eq_applyAll {rule : Rule} (hrule : rule.BeginsWithWord) (s : Text) :
    rule.applyWords s = rule.applyAll s :=
  applyWordsFrom_eq hrule 0 false s (by simp)

end Rule

end Linewise
