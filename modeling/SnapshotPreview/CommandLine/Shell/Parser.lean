import SnapshotPreview.CommandLine.Shell.Words

/-!
# Reading commands

Commands are read a line at a time, or rather up to the end of the line on which the last of them
ends, since those on one line run before the next line is looked at.
-/

namespace SnapshotPreview.Shell

/-! ## Tokens -/

/-- The end of a document in the text: a line of its own, before which tabs may be ignored. -/
structure Delimiter where
  line : List Char
  ignoresTabs : Bool
deriving DecidableEq, Repr

/-- What a line of commands is made of. -/
inductive Token where
  | word (w : Word)
  | redirection (r : Redirection)
  | document (descriptor : Nat) (delimiter : Delimiter)
  | newline
  | semicolon
  | ampersand
  | andThen
  | orElse
  | bar
  | opening
  | closing
  /-- The end of a case. -/
  | caseEnd
  | nothing

/-- The text after blanks and a comment. A comment begins where a word could and goes on to the end
of the line. -/
def skipBlanks : List Char → List Char
  | '\\' :: '\n' :: rest => skipBlanks rest
  | c :: rest =>
    if c = ' ' ∨ c = '\t' then skipBlanks rest
    else if c = '#' then rest.dropWhile (· != '\n')
    else c :: rest
  | [] => []

/-- The text of a word without its quotes. -/
def Word.unquoted (w : Word) : List Char :=
  w.flatMap fun
    | .text _ cs => cs
    | _ => []

/-- A redirection begins. A digit right before one is its descriptor. -/
def startsRedirection : List Char → Bool
  | c :: d :: _ => c == '<' || c == '>' || (c.isDigit && (d == '<' || d == '>'))
  | [c] => c == '<' || c == '>'
  | [] => false

/-- A redirection, of which the descriptor has been read if one is given. -/
def readRedirection (program : Reader (List Command)) (descriptor : Option Nat)
    (cs : List Char) : Option (Token × List Char) :=
  let target (rest : List Char) (token : Word → Token) : Option (Token × List Char) :=
    if startsRedirection (skipBlanks rest) then none
    else
      match readWord program (skipBlanks rest) with
      | some ([], _) | none => none
      | some (w, rest) => some (token w, rest)
  let file (usual : Nat) (access : Access) (rest : List Char) :=
    target rest fun w => .redirection (.file (descriptor.getD usual) access w)
  let copy (usual : Nat) (rest : List Char) :=
    target rest fun w => .redirection (.copy (descriptor.getD usual) w)
  let document (ignoresTabs : Bool) (rest : List Char) :=
    target rest fun w => .document (descriptor.getD 0) { line := w.unquoted, ignoresTabs }
  match cs with
  | '>' :: '>' :: rest => file 1 .append rest
  | '>' :: '|' :: rest => file 1 .write rest
  | '>' :: '&' :: rest => copy 1 rest
  | '>' :: rest => file 1 .write rest
  | '<' :: '<' :: '-' :: rest => document true rest
  | '<' :: '<' :: rest => document false rest
  | '<' :: '&' :: rest => copy 0 rest
  | '<' :: '>' :: rest => file 0 .both rest
  | '<' :: rest => file 0 .read rest
  | _ => none

/-- The next token. -/
def readToken (program : Reader (List Command)) (cs : List Char) : Option (Token × List Char) :=
  match skipBlanks cs with
  | [] => some (.nothing, [])
  | '\n' :: rest => some (.newline, rest)
  | '&' :: '&' :: rest => some (.andThen, rest)
  | '&' :: rest => some (.ampersand, rest)
  | '|' :: '|' :: rest => some (.orElse, rest)
  | '|' :: rest => some (.bar, rest)
  | ';' :: ';' :: rest => some (.caseEnd, rest)
  | ';' :: rest => some (.semicolon, rest)
  | '(' :: rest => some (.opening, rest)
  | ')' :: rest => some (.closing, rest)
  | c :: rest =>
    if startsRedirection (c :: rest) then
      if c.isDigit then readRedirection program (some (digit c)) rest
      else readRedirection program none (c :: rest)
    else (readWord program (c :: rest)).map fun (w, rest) => (.word w, rest)

/-- The words that mean something where a command could begin. -/
def keywords : List String :=
  ["!", "\x7b", "\x7d", "case", "do", "done", "elif", "else", "esac", "fi", "for", "if", "in",
    "then", "until", "while"]

/-- The keyword that a token is. -/
def Token.keyword? : Token → Option String
  | .word w =>
    (plainText? w).bind fun cs =>
      if keywords.contains (String.ofList cs) then some (String.ofList cs) else none
  | _ => none

/-- No command can begin with the token, but the commands before it may end there. -/
def Token.endsList (t : Token) : Bool :=
  match t with
  | .closing | .caseEnd | .nothing => true
  | t =>
    match t.keyword? with
    | some k => ["do", "done", "elif", "else", "esac", "fi", "then", "\x7d"].contains k
    | none => false

/-! ## The text that is read -/

/-- What is left of a text. -/
structure Source where
  rest : List Char
  /-- The documents that begin at the end of the line. -/
  documents : List Delimiter := []
  /-- A token that has been read but not used. -/
  ahead : Option Token := none

/-- A part of reading that may find the text not to be as it must. -/
abbrev Parser (α : Type) := StateT Source Option α

/-- The text after a document. One that does not end takes all of the text. -/
def skipDocument (d : Delimiter) : Nat → List Char → List Char
  | 0, cs => cs
  | fuel + 1, cs =>
    let line := cs.takeWhile (· != '\n')
    let rest := (cs.dropWhile (· != '\n')).drop 1
    let line := if d.ignoresTabs then line.dropWhile (· == '\t') else line
    if line = d.line || rest.isEmpty then rest else skipDocument d fuel rest

namespace Parser

/-- The next token. Documents begin after the end of a line. -/
def next (program : Reader (List Command)) : Parser Token := do
  let s ← get
  match s.ahead with
  | some t => set { s with ahead := none }; return t
  | none =>
    let (t, rest) ← readToken program s.rest
    match t with
    | .newline =>
      let rest := s.documents.foldl (fun cs d => skipDocument d (cs.length + 1) cs) rest
      set { s with rest, documents := [] }
    | .document _ d => set { s with rest, documents := s.documents ++ [d] }
    | _ => set { s with rest }
    return t

/-- Puts a token back. -/
def unread (t : Token) : Parser Unit := modify fun s => { s with ahead := some t }

/-- How many tokens there can be at most. -/
def size : Parser Nat := do return (← get).rest.length + 2

/-- The next token that does not end a line, after at most `fuel` that do. -/
def nextInLines (program : Reader (List Command)) : Nat → Parser Token
  | 0 => failure
  | fuel + 1 => do
    match ← next program with
    | .newline => nextInLines program fuel
    | t => return t

/-- What is needed to read commands within commands. -/
structure Nested where
  /-- The commands in the parentheses after a dollar sign. -/
  program : Reader (List Command)
  /-- The commands up to a token that ends them. There may have to be one. -/
  list : (required : Bool) → Parser (List Command)

variable (n : Nested)

/-- The next token. -/
def token : Parser Token := next n.program

/-- The next token, on this line or one after it. -/
def tokenInLines : Parser Token := do nextInLines n.program (← size)

/-- Reads a keyword. -/
def expect (keyword : String) (t : Token) : Parser Unit :=
  guard (t.keyword? = some keyword)

/-- Redirections, at most `fuel` of them. -/
def redirections : Nat → Parser (List Redirection)
  | 0 => failure
  | fuel + 1 => do
    match ← token n with
    | .redirection r => return r :: (← redirections fuel)
    | .document descriptor _ => return .document descriptor :: (← redirections fuel)
    | t => unread t; return []

/-- The names that no function may have. -/
def reservedNames : List String :=
  [".", ":", "break", "continue", "eval", "exec", "exit", "export", "readonly", "return", "set",
    "shift", "times", "trap", "unset"]

/-- A simple command, which goes on with a token, or the definition of a function. The body of a
function is read by a reader that is given. -/
def simple (body : Token → Parser Command) : Nat → List (List Char × Word) → List Word →
    List Redirection → Token → Parser Command
  | 0, _, _, _, _ => failure
  | fuel + 1, assignments, words, redirections, t => do
    let more (assignments : List (List Char × Word)) (words : List Word)
        (redirections : List Redirection) := do
      simple body fuel assignments words redirections (← token n)
    match t with
    | .word w =>
      match if words.isEmpty then assignment? w else none with
      | some a => more (assignments ++ [a]) words redirections
      | none => more assignments (words ++ [w]) redirections
    | .redirection r => more assignments words (redirections ++ [r])
    | .document descriptor _ => more assignments words (redirections ++ [.document descriptor])
    | .opening =>
      match assignments, words, redirections with
      | [], [name], [] =>
        let .closing ← token n | failure
        let some name := plainText? name | failure
        guard (isName name ∧ !reservedNames.contains (String.ofList name))
        return .function name (← body (← tokenInLines n))
      | _, _, _ => failure
    | t => unread t; return .simple assignments words redirections

/-- Words up to the end of a line or a semicolon, at most `fuel` of them. -/
def wordsInLine : Nat → Parser (List Word)
  | 0 => failure
  | fuel + 1 => do
    match ← token n with
    | .word w => return w :: (← wordsInLine fuel)
    | .newline | .semicolon => return []
    | _ => failure

/-- The patterns of a case, of which the next token begins the first, at most `fuel` of them. -/
def patterns : Nat → Token → Parser (List Word)
  | 0, _ => failure
  | fuel + 1, t => do
    let .word w := t | failure
    match ← token n with
    | .bar => return w :: (← patterns fuel (← token n))
    | .closing => return [w]
    | _ => failure

/-- The cases up to the keyword after them, at most `fuel` of them. -/
def cases : Nat → Parser (List (List Word × List Command))
  | 0 => failure
  | fuel + 1 => do
    let t ← tokenInLines n
    if t.keyword? = some "esac" then return []
    let t ← match t with
      | .opening => token n
      | t => pure t
    let found ← patterns n fuel t
    let body ← n.list false
    match ← tokenInLines n with
    | .caseEnd => return (found, body) :: (← cases fuel)
    | t => expect "esac" t; return [(found, body)]

/-- The rest of a conditional command after its first keyword, with at most `fuel` branches. -/
def conditional : Nat → Parser Command
  | 0 => failure
  | fuel + 1 => do
    let test ← n.list true
    expect "then" (← token n)
    let yes ← n.list true
    let t ← token n
    match t.keyword? with
    | some "elif" => return .conditional test yes [← conditional fuel]
    | some "else" =>
      let no ← n.list true
      expect "fi" (← token n)
      return .conditional test yes no
    | _ => expect "fi" t; return .conditional test yes []

/-- The body of a loop. -/
def loopBody (t : Token) : Parser (List Command) := do
  expect "do" t
  let body ← n.list true
  expect "done" (← token n)
  return body

/-- The rest of a command after the keyword it begins with. -/
def compound (keyword : String) : Parser Command := do
  match keyword with
  | "if" => conditional n (← size)
  | "while" | "until" =>
    let test ← n.list true
    return .loop (keyword = "until") test (← loopBody n (← token n))
  | "for" =>
    let .word w ← token n | failure
    let some name := plainText? w | failure
    guard (isName name)
    let t ← tokenInLines n
    if t.keyword? = some "in" then
      let words ← wordsInLine n (← size)
      return .each name (some words) (← loopBody n (← tokenInLines n))
    else
      match t with
      | .semicolon => pure ()
      | t => unread t
      return .each name none (← loopBody n (← tokenInLines n))
  | "case" =>
    let .word subject ← token n | failure
    expect "in" (← tokenInLines n)
    return .select subject (← cases n (← size))
  | "\x7b" =>
    let body ← n.list true
    expect "\x7d" (← token n)
    return .group body
  | _ => failure

/-- A command that begins with a token, with at most `fuel` functions defined within each other. -/
def command : Nat → Token → Parser Command
  | 0, _ => failure
  | fuel + 1, t => do
    let withRedirections (c : Command) : Parser Command := do
      match ← redirections n (← size) with
      | [] => return c
      | rs => return .redirected c rs
    match t.keyword?, t with
    | some keyword, _ => withRedirections (← compound n keyword)
    | none, .opening =>
      let body ← n.list true
      let .closing ← token n | failure
      withRedirections (.subshell body)
    | none, .word _ | none, .redirection _ | none, .document .. =>
      simple n (command fuel) (← size) [] [] [] t
    | none, _ => failure

/-- The commands of a pipeline after its first, at most `fuel` of them. -/
def stages (functions : Nat) : Nat → Parser (List Command)
  | 0 => failure
  | fuel + 1 => do
    match ← token n with
    | .bar =>
      let c ← command n functions (← tokenInLines n)
      return c :: (← stages functions fuel)
    | t => unread t; return []

/-- A pipeline that begins with a token. -/
def pipeline (t : Token) : Parser Command := do
  let functions ← size
  let negated := t.keyword? = some "!"
  let first ← command n functions (← if negated then token n else pure t)
  let pipe ← match ← stages n functions functions with
    | [] => pure first
    | more => pure (.pipeline (first :: more))
  return if negated then .negation pipe else pipe

/-- Pipelines joined to one that has been read, at most `fuel` of them. -/
def joined : Nat → Command → Parser Command
  | 0, _ => failure
  | fuel + 1, first => do
    match ← token n with
    | .andThen => joined fuel (.conjunction first (← pipeline n (← tokenInLines n)))
    | .orElse => joined fuel (.disjunction first (← pipeline n (← tokenInLines n)))
    | t => unread t; return first

/-- Pipelines joined to each other, of which the first begins with a token. -/
def andOr (t : Token) : Parser Command := do joined n (← size) (← pipeline n t)

/-- The commands up to a token that ends them, at most `fuel` of them. -/
def commands : Nat → (required : Bool) → Parser (List Command)
  | 0, _ => failure
  | fuel + 1, required => do
    let t ← tokenInLines n
    if !required ∧ t.endsList then unread t; return []
    if let .nothing := t then unread t; return []
    let c ← andOr n t
    match ← token n with
    | .ampersand => return .background c :: (← commands fuel false)
    | .semicolon | .newline => return c :: (← commands fuel false)
    | t => unread t; return [c]

/-- The commands on a line, at most `fuel` of them. -/
def line : Nat → Parser (List Command)
  | 0 => failure
  | fuel + 1 => do
    match ← token n with
    | .newline => return []
    | .nothing => unread .nothing; return []
    | t =>
      let c ← andOr n t
      match ← token n with
      | .ampersand => return .background c :: (← line fuel)
      | .semicolon => return c :: (← line fuel)
      | .newline => return [c]
      | .nothing => unread .nothing; return [c]
      | _ => failure

/-- How commands within commands are read, at most `depth` levels deep. -/
def nested : Nat → Nested
  | 0 => { program := fun _ => none, list := fun _ => failure }
  | depth + 1 =>
    { program := fun cs =>
        ((commands (nested depth) (cs.length + 2) false).run { rest := cs }).bind fun (found, s) =>
          match s.ahead with
          | some .closing => some (found, ')' :: s.rest)
          | _ => some (found, [])
      list := fun required => do commands (nested depth) (← size) required }

end Parser

/-- The commands on the next line of a text, and the text after it. -/
def readLine : Reader (List Command) := fun cs =>
  ((Parser.line (Parser.nested (cs.length + 1)) (cs.length + 2)).run { rest := cs }).map
    fun (found, s) => (found, s.rest)

end SnapshotPreview.Shell
