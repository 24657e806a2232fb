import Monkey.Span

/-!
# Tokens

A token is a kind, the text it was cut from and the span of that text. Keywords
are words that stop being names; the end of the input is a token of its own, with
an empty text.
-/

namespace Monkey

/-- The words that are not names. -/
inductive Keyword where
  | function
  | let_
  | true_
  | false_
  | if_
  | else_
  | return_
deriving DecidableEq, Repr

namespace Keyword

/-- How the keyword is written in a program. -/
def spelling : Keyword → String
  | function => "fn"
  | let_ => "let"
  | true_ => "true"
  | false_ => "false"
  | if_ => "if"
  | else_ => "else"
  | return_ => "return"

/-- How syntax errors call the keyword. -/
def name : Keyword → String
  | function => "FUNCTION"
  | let_ => "LET"
  | true_ => "TRUE"
  | false_ => "FALSE"
  | if_ => "IF"
  | else_ => "ELSE"
  | return_ => "RETURN"

/-- Every keyword, once. -/
def all : List Keyword :=
  [function, let_, true_, false_, if_, else_, return_]

theorem mem_all (w : Keyword) : w ∈ all := by
  cases w <;> decide

/-- The keyword with a given spelling. -/
def ofSpelling? (word : String) : Option Keyword :=
  all.find? fun w => w.spelling = word

theorem ofSpelling?_spelling (w : Keyword) : ofSpelling? w.spelling = some w := by
  cases w <;> decide

theorem spelling_of_ofSpelling? {word : String} {w : Keyword}
    (h : ofSpelling? word = some w) : w.spelling = word := by
  simpa using List.find?_some h

end Keyword

/-- What a token is. -/
inductive Kind where
  | illegal
  | eof
  | ident
  | int
  | assign
  | plus
  | minus
  | bang
  | asterisk
  | slash
  | lt
  | gt
  | eq
  | notEq
  | comma
  | semicolon
  | lparen
  | rparen
  | lbrace
  | rbrace
  | keyword (word : Keyword)
deriving DecidableEq, Repr

namespace Kind

/-- How syntax errors call the kind: a mark by itself, a class by its name. -/
def name : Kind → String
  | illegal => "ILLEGAL"
  | eof => "EOF"
  | ident => "IDENT"
  | int => "INT"
  | assign => "="
  | plus => "+"
  | minus => "-"
  | bang => "!"
  | asterisk => "*"
  | slash => "/"
  | lt => "<"
  | gt => ">"
  | eq => "=="
  | notEq => "!="
  | comma => ","
  | semicolon => ";"
  | lparen => "("
  | rparen => ")"
  | lbrace => "\x7b"
  | rbrace => "\x7d"
  | keyword word => word.name

/-- The kinds that are keywords. -/
def isKeyword : Kind → Bool
  | keyword _ => true
  | _ => false

/-- The kind of a word: a keyword if it is spelled like one, a name otherwise. -/
def ofWord (word : String) : Kind :=
  match Keyword.ofSpelling? word with
  | some w => keyword w
  | none => ident

/-- The kind of a mark of one character; any other character is illegal. -/
def ofMark : Char → Kind
  | '=' => assign
  | '+' => plus
  | '-' => minus
  | '!' => bang
  | '*' => asterisk
  | '/' => slash
  | '<' => lt
  | '>' => gt
  | ',' => comma
  | ';' => semicolon
  | '(' => lparen
  | ')' => rparen
  | '{' => lbrace
  | '}' => rbrace
  | _ => illegal

end Kind

/-- A kind together with the text and the place it was cut from. -/
structure Token where
  kind : Kind
  literal : String
  span : Span
deriving DecidableEq, Repr

/-- The token that stands for the end of a text of `size` bytes. -/
def Token.eof (size : Nat) : Token :=
  ⟨.eof, "", ⟨size, size⟩⟩

end Monkey
