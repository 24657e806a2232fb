import Monkey.Console.Session

/-!
# The console

Feeds a session with the lines of standard input, and writes what it answers.
-/

namespace Monkey.Console

/-- No run nests its calls more deeply than this. -/
def callDepth : Nat :=
  1000000000000

/-- Go on with a session until it or the input is at its end. -/
partial def converse (s : Session) : IO Unit := do
  let line ← (← IO.getStdin).getLine
  if line.isEmpty then
    IO.print farewell
  else
    match s.feed callDepth line with
    | .error breakdown => IO.eprintln breakdown.message
    | .ok turn =>
        IO.print turn.written.answers
        IO.eprint turn.written.complaints
        match turn.next? with
        | none => return
        | some s => converse s

/-- Greet the user, and hold a session on the standard streams. -/
def hold : IO Unit := do
  IO.print (greeting (addressee (← IO.getEnv "USER") (← IO.getEnv "USERNAME")))
  converse .start

end Monkey.Console

def main : IO Unit :=
  Monkey.Console.hold
