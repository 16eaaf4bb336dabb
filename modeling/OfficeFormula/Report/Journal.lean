import OfficeFormula.Report.Message

/-!
# Results with messages

`Reported α` is a result together with the messages that came up on the way to it, in order. A
`Journal` keeps the warnings and errors of several steps apart.
-/

namespace OfficeFormula.Report

/-- A result and the messages that came up on the way to it. -/
structure Reported (α : Type) where
  value : α
  messages : List Message

namespace Reported

instance : Monad Reported where
  pure a := ⟨a, []⟩
  bind r f := ⟨(f r.value).value, r.messages ++ (f r.value).messages⟩

/-- A message, and nothing else. -/
def tell (m : Message) : Reported Unit := ⟨(), [m]⟩

end Reported

/-- The warnings and errors met so far. -/
structure Journal where
  warnings : List Message
  errors : List Message

namespace Journal

def empty : Journal := ⟨[], []⟩

/-- The journal after one more message. -/
def record (j : Journal) (m : Message) : Journal :=
  match m.severity with
  | .error => { j with errors := j.errors ++ [m] }
  | .warning => { j with warnings := j.warnings ++ [m] }
  | .plain | .progress => j

/-- The journal of a list of messages. -/
def ofMessages (ms : List Message) : Journal := ms.foldl record empty

end Journal

end OfficeFormula.Report
