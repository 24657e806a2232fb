import Monkey.Console.Brackets
import Monkey.Eval
import Monkey.Program.Parse
import Monkey.Report
import Monkey.Text.Backspace
import Monkey.Text.Blank

/-!
# Sessions

A session is fed one line of input after another. Lines are put together until their
brackets are closed, and then run as a program in one and the same frame. What it
results in is shown, unless the program ends by binding a name; syntax errors are
reported instead, and then nothing is run.

A backspace takes back what was typed before it, also on an earlier line that is not
run yet. Brackets are looked at only after that.

Input with a bracket that does not match stays, and is complained about again at each
further line, unless the bracket is taken back.

A session breaks down only where calls are nested too deeply, or where a backspace would
cut a character in two.
-/

namespace Monkey.Console

/-- What a session writes: its answers and, apart from them, its complaints. -/
structure Written where
  answers : String
  complaints : String
deriving DecidableEq, Repr

namespace Written

/-- Nothing. -/
def nothing : Written :=
  ⟨"", ""⟩

/-- Answers alone. -/
def answer (s : String) : Written :=
  ⟨s, ""⟩

/-- Complaints alone. -/
def complaint (s : String) : Written :=
  ⟨"", s⟩

/-- One after the other, each side for itself. -/
def append (v w : Written) : Written :=
  ⟨v.answers ++ w.answers, v.complaints ++ w.complaints⟩

end Written

/-- The input that is not run yet, and the frame that programs are run in. -/
structure Session where
  pending : String
  store : Store
  env : FrameId

/-- What one line of input leads to. -/
structure Turn where
  written : Written
  /-- How the session goes on; `none` if it is over. -/
  next? : Option Session

/-- Why a session cannot go on. -/
inductive Breakdown where
  /-- Calls are nested too deeply. -/
  | tooDeep
  /-- A backspace would cut a character in two. -/
  | cutCharacter
deriving DecidableEq, Repr

/-- What is said of it. -/
def Breakdown.message : Breakdown → String
  | .tooDeep => "too many nested calls"
  | .cutCharacter => "a backspace within a character"

/-- The greeting, before any input. -/
def greeting (user : String) : String :=
  "Hello " ++ user ++ "! This is the Monkey programming language!\n" ++
    "Feel free to type in commands. Type 'exit' or press Ctrl-D to quit.\n"

/-- Whom to greet: the user, or else the login name, or else whoever is there. -/
def addressee (user? username? : Option String) : String :=
  (user?.or username?).getD "there"

/-- What is written when the input is at its end. -/
def farewell : String :=
  "\nExiting.\n"

/-- The word that ends a session, in any case. -/
def isExit (input : String) : Bool :=
  input.map Char.toLower = "exit"

/-- The text before the line end at its end, and this line end. -/
def splitLineEnd (cs : List Char) : List Char × List Char :=
  match cs.reverse with
  | '\n' :: '\r' :: rev => (rev.reverse, ['\r', '\n'])
  | '\n' :: rev => (rev.reverse, ['\n'])
  | _ => (cs, [])

/-- The lines of the input, each with its line feed. -/
def inputLines : List Char → List (List Char)
  | [] => []
  | c :: cs => if c = '\n' then ['\n'] :: inputLines cs else Text.consLine c (inputLines cs)

namespace Session

/-- A session before its first line. -/
def start : Session :=
  let (env, store) := Store.empty.newFrame none
  ⟨"", store, env⟩

/-- Run one complete input, with calls nested up to a given depth. -/
def execute (depth : Nat) (s : Session) (text : String) : Except Breakdown Turn :=
  let input := String.ofList (Text.trim text.toList)
  if input = "" then .ok ⟨.nothing, some s⟩
  else if isExit input then .ok ⟨.nothing, none⟩
  else
    let parsed := parse input
    if parsed.errors.isEmpty then
      match evaluate depth parsed.program.erase s.env s.store with
      | none => .error .tooDeep
      | some (v, store) =>
          let shown := if parsed.program.endsWithLet then "" else v.inspect ++ "\n"
          .ok ⟨.answer shown, some { s with store }⟩
    else
      let reports := parsed.errors.map (·.report input)
      .ok ⟨.complaint (String.join reports), some s⟩

/-- Read one more line, given with its line end. -/
def feed (depth : Nat) (s : Session) (line : String) : Except Breakdown Turn :=
  let (typed, lineEnd) := splitLineEnd (s.pending ++ line).toList
  match Text.eraseBackspaces typed with
  | none => .error .cutCharacter
  | some kept =>
      let input := String.ofList kept
      match verdict input with
      | .closed => execute depth { s with pending := "" } input
      | .unfinished =>
          .ok ⟨.nothing, some { s with pending := input ++ String.ofList lineEnd }⟩
      | .unmatched t => .ok ⟨.complaint (unmatchedMessage t), some { s with pending := input }⟩

/-- Read lines until the session is over, or the input is. -/
def readAll (depth : Nat) (s : Session) : List String → Except Breakdown Written
  | [] => .ok (.answer farewell)
  | line :: lines => do
      let turn ← s.feed depth line
      match turn.next? with
      | none => return turn.written
      | some s => return turn.written.append (← s.readAll depth lines)

end Session

/-- All that a session writes which is given its input at once. -/
def transcript (depth : Nat) (user input : String) : Except Breakdown Written := do
  let written ← Session.start.readAll depth ((inputLines input.toList).map String.ofList)
  return (Written.answer (greeting user)).append written

end Monkey.Console
