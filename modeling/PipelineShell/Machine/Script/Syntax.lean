import PipelineShell.Machine.Request

/-!
The commands of a script and the words in them. A word is a row of pieces: text as it stands, and what
is to be put in when the word is expanded.
-/

set_option autoImplicit false

namespace PipelineShell.Machine.Script

structure Trim where
  fromStart : Bool
  longest : Bool
  deriving DecidableEq, Repr

inductive Use where
  | value
  | length
  | orElse
  | andThen
  | orSet
  | orFail
  | trimmed (t : Trim)
  | unknown
  deriving DecidableEq, Repr

inductive RedirectionKind where
  | input
  | output
  /-- Output, also over a file that is there when this is forbidden otherwise. -/
  | clobber
  | addition
  | both
  | sharedInput
  | sharedOutput
  deriving DecidableEq, Repr

mutual

inductive Piece where
  /-- An empty quoted text stands for the quotes themselves. -/
  | text (quoted : Bool) (letters : List Char)
  | parameter (quoted : Bool) (name : String) (use : Use) (colon : Bool) (word : List Piece)
  | output (quoted : Bool) (body : Step)
  | number (quoted : Bool) (expression : List Piece)

inductive Redirection where
  | file (fd : Nat) (kind : RedirectionKind) (target : List Piece)
  | document (fd : Nat) (text : List Piece)

inductive Step where
  | nothing
  | simple (line : Nat) (settings words : List (List Piece)) (redirections : List Redirection)
  | pipeline (members : List Step) (background : Bool)
  | redirected (line : Nat) (body : Step) (redirections : List Redirection)
  | background (line : Nat) (body : Step) (redirections : List Redirection)
  | subshell (line : Nat) (body : Step) (redirections : List Redirection)
  | both (first second : Step)
  | either (first second : Step)
  | next (first second : Step)
  | negated (body : Step)
  | branch (condition yes no : Step)
  /-- Goes on as long as the condition has the wanted outcome. -/
  | loop (wanted : Bool) (condition body : Step)
  | each (line : Nat) (name : String) (words : List (List Piece)) (body : Step)
  | choose (line : Nat) (subject : List Piece) (alternatives : List Alternative)
  | define (line : Nat) (name : String) (body : Step)

inductive Alternative where
  | mk (patterns : List (List Piece)) (body : Step)

end

abbrev Word := List Piece

instance : Inhabited Step := ⟨.nothing⟩

namespace Word

def allParameters : Word := [.parameter true "@" .value false []]

def plain? : Word → Option (List Char)
  | [] => some []
  | .text false letters :: rest => (plain? rest).map (letters ++ ·)
  | _ => none

end Word

def isNameStart (c : Char) : Bool := c.isAlpha || c = '_'

def isNamePart (c : Char) : Bool := c.isAlphanum || c = '_'

def leadingName : List Char → List Char
  | [] => []
  | c :: rest => if isNameStart c then c :: rest.takeWhile isNamePart else []

def isName (text : List Char) : Bool := text ≠ [] && (leadingName text).length = text.length

def isSpecial (c : Char) : Bool := ['#', '@', '*', '?', '-', '$', '!'].contains c || c.isDigit

end PipelineShell.Machine.Script
