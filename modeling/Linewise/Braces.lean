import Linewise.Text.Basic

/-! Braces, which the target does without. -/
namespace Linewise

namespace Braces

/-- The line without its braces. -/
def remove (line : Text) : Text :=
  line.filter fun c => c != '{' && c != '}'

end Braces

end Linewise
