import SnapshotPreview.CommandLine.Shell.State

/-!
# Expressions

Whole numbers of 64 bits with the operators of C, variables, and assignments to them.
-/

namespace SnapshotPreview.Shell.Arithmetic

/-! ## Expressions -/

/-- An operator between two numbers, both of which are always computed. -/
inductive Binary where
  | multiply
  | divide
  | remainder
  | add
  | subtract
  | shiftLeft
  | shiftRight
  | less
  | lessOrEqual
  | greater
  | greaterOrEqual
  | equal
  | unequal
  | bitAnd
  | bitXor
  | bitOr
deriving DecidableEq, Repr

/-- An operator before a number. -/
inductive Unary where
  | negate
  | logicalNot
  | bitNot
deriving DecidableEq, Repr

/-- An expression. -/
inductive Expr where
  | number (n : Int64)
  | value (name : List Char)
  | unary (o : Unary) (e : Expr)
  | binary (o : Binary) (left right : Expr)
  | both (left right : Expr)
  | either (left right : Expr)
  | choice (test yes no : Expr)
  | assign (name : List Char) (o : Option Binary) (e : Expr)

/-! ## Numbers -/

/-- The value of a digit of a base. -/
def digitValue? (base : Nat) (c : Char) : Option Nat :=
  let value :=
    if '0' ≤ c && c ≤ '9' then c.toNat - '0'.toNat
    else if 'a' ≤ c && c ≤ 'f' then c.toNat - 'a'.toNat + 10
    else if 'A' ≤ c && c ≤ 'F' then c.toNat - 'A'.toNat + 10
    else base
  if value < base then some value else none

/-- The digits of a base at the start of a text, as a number, and what follows them. -/
def readDigits (base : Nat) (cs : List Char) : Nat × List Char :=
  let isDigit (c : Char) : Bool := (digitValue? base c).isSome
  ((cs.takeWhile isDigit).foldl (fun n c => n * base + (digitValue? base c).getD 0) 0,
    cs.dropWhile isDigit)

/-- A number that is written as in C: in base 8 after a zero and in base 16 after `0x`. -/
def readNumber (cs : List Char) : Nat × List Char :=
  match cs with
  | '0' :: x :: d :: rest =>
    if (x = 'x' ∨ x = 'X') ∧ (digitValue? 16 d).isSome then readDigits 16 (d :: rest)
    else readDigits 8 cs
  | '0' :: _ => readDigits 8 cs
  | _ => readDigits 10 cs

/-- The greatest number. -/
def greatest : Nat := Nat.pow 2 63 - 1

/-- A blank before or after a number. -/
def isSpace (c : Char) : Bool := c == ' ' || ('\t' ≤ c && c ≤ '\r')

/-- The sign of a number and what follows it. -/
def splitSign : List Char → Bool × List Char
  | '-' :: rest => (true, rest)
  | '+' :: rest => (false, rest)
  | rest => (false, rest)

/-- The number that is the value of a variable. No digits stand for zero. -/
def valueOf? (text : List Char) : Option Int64 :=
  let (negative, digits) := splitSign (text.dropWhile isSpace)
  let (n, rest) := if digits.head?.any Char.isDigit then readNumber digits else (0, text)
  if rest.all isSpace && n ≤ greatest + (if negative then 1 else 0) then
    some (Int64.ofInt (if negative then -Int.ofNat n else n))
  else none

/-! ## Tokens -/

/-- What an expression is made of. -/
inductive Token where
  | number (n : Int64)
  | name (cs : List Char)
  | sign (s : String)
deriving DecidableEq, Repr

/-- All operators and parentheses. One that begins with another comes before it. -/
def signs : List String :=
  ["<<=", ">>=", "<<", ">>", "<=", ">=", "==", "!=", "&&", "||", "+=", "-=", "*=", "/=", "%=", "&=",
    "^=", "|=", "=", "<", ">", "+", "-", "*", "/", "%", "&", "^", "|", "!", "~", "(", ")", "?", ":"]

/-- The tokens of an expression, at most `fuel` of them. A character that is not part of one is one
that has no meaning. -/
def readTokens : Nat → List Char → List Token
  | 0, _ => []
  | fuel + 1, cs =>
    match cs.dropWhile fun c => c == ' ' || c == '\t' || c == '\n' with
    | [] => []
    | c :: rest =>
      if c.isDigit then
        let (n, rest) := readNumber (c :: rest)
        .number (Int64.ofNat (min n greatest)) :: readTokens fuel rest
      else if startsName c then
        .name ((c :: rest).takeWhile isNameChar) ::
          readTokens fuel ((c :: rest).dropWhile isNameChar)
      else
        match signs.find? fun s => s.toList.isPrefixOf (c :: rest) with
        | some s => .sign s :: readTokens fuel ((c :: rest).drop s.length)
        | none => .sign (toText [c]) :: readTokens fuel rest

/-! ## Reading -/

/-- A reader of the start of a list of tokens. -/
abbrev Reader := List Token → Option (Expr × List Token)

/-- The operators that bind equally, those that bind the most first. -/
def levels : List (List (String × Binary)) :=
  [[("*", .multiply), ("/", .divide), ("%", .remainder)], [("+", .add), ("-", .subtract)],
    [("<<", .shiftLeft), (">>", .shiftRight)],
    [("<", .less), ("<=", .lessOrEqual), (">", .greater), (">=", .greaterOrEqual)],
    [("==", .equal), ("!=", .unequal)], [("&", .bitAnd)], [("^", .bitXor)], [("|", .bitOr)]]

/-- The operator that an assignment applies before it assigns. -/
def assigning? (s : String) : Option (Option Binary) :=
  if s = "=" then some none
  else if s.endsWith "=" ∧ s ≠ "<=" ∧ s ≠ ">=" then
    ((levels.flatten.find? fun (sign, _) => sign ++ "=" == s).map (·.2)).map some
  else none

/-- A number, a variable or an expression in parentheses, after any operators before it. -/
def readOperand (inner : Reader) : Reader
  | .number n :: rest => some (.number n, rest)
  | .name cs :: rest => some (.value cs, rest)
  | .sign s :: rest =>
    let unary (o : Unary) : Option (Expr × List Token) :=
      (readOperand inner rest).map fun (e, rest) => (.unary o e, rest)
    match s with
    | "+" => readOperand inner rest
    | "-" => unary .negate
    | "!" => unary .logicalNot
    | "~" => unary .bitNot
    | "(" =>
      match inner rest with
      | some (e, .sign ")" :: rest) => some (e, rest)
      | _ => none
    | _ => none
  | [] => none

/-- Operands joined to one that has been read, at most `fuel` of them. -/
def readJoined (operand : Reader) (join? : String → Option (Expr → Expr → Expr)) :
    Nat → Expr → Reader
  | 0, _, _ => none
  | fuel + 1, left, tokens =>
    match tokens with
    | .sign s :: rest =>
      match join? s with
      | some join => do
        let (right, rest) ← operand rest
        readJoined operand join? fuel (join left right) rest
      | none => some (left, tokens)
    | _ => some (left, tokens)

/-- Operands with operators between them that bind equally. -/
def readLevel (join? : String → Option (Expr → Expr → Expr)) (operand : Reader) : Reader :=
  fun tokens => do
    let (left, rest) ← operand tokens
    readJoined operand join? (rest.length + 1) left rest

/-- Operands with any operators between them. -/
def readOperators (inner : Reader) : Reader :=
  let binary := levels.foldl
    (fun operand level =>
      readLevel
        (fun s => (level.find? (·.1 == s)).map fun (_, o) => Expr.binary o) operand)
    (readOperand inner)
  let both := readLevel (fun s => if s = "&&" then some .both else none) binary
  readLevel (fun s => if s = "||" then some .either else none) both

/-- An expression in which at most `fuel` are nested. -/
def readExpr : Nat → (assigns : Bool) → Reader
  | 0, _, _ => none
  | fuel + 1, assigns, tokens =>
    let assignment :=
      match tokens with
      | .name cs :: .sign s :: rest => if assigns then (assigning? s).map (cs, ·, rest) else none
      | _ => none
    match assignment with
    | some (name, o, rest) => do
      let (e, rest) ← readExpr fuel true rest
      return (.assign name o e, rest)
    | none => do
      let (test, rest) ← readOperators (readExpr fuel true) tokens
      match rest with
      | .sign "?" :: rest =>
        let (yes, rest) ← readExpr fuel true rest
        let .sign ":" :: rest := rest | failure
        let (no, rest) ← readExpr fuel false rest
        return (.choice test yes no, rest)
      | rest => return (test, rest)

/-- The expression that a text begins with, and whether nothing follows it. -/
def parse? (text : List Char) : Option (Expr × Bool) := do
  let tokens := readTokens (text.length + 1) text
  let (e, rest) ← readExpr (tokens.length + 1) true tokens
  return (e, rest.isEmpty)

/-! ## Values -/

/-- The number of a truth value. -/
def ofBool (b : Bool) : Int64 := if b then 1 else 0

/-- The value of an operator, unless it divides by zero. -/
def Binary.apply? (o : Binary) (a b : Int64) : Option Int64 :=
  match o with
  | multiply => some (a * b)
  | divide => if b = 0 then none else some (a / b)
  | remainder => if b = 0 then none else some (a % b)
  | add => some (a + b)
  | subtract => some (a - b)
  | shiftLeft => some (a <<< b)
  | shiftRight => some (a >>> b)
  | less => some (ofBool (a < b))
  | lessOrEqual => some (ofBool (a ≤ b))
  | greater => some (ofBool (b < a))
  | greaterOrEqual => some (ofBool (b ≤ a))
  | equal => some (ofBool (a == b))
  | unequal => some (ofBool (a != b))
  | bitAnd => some (a &&& b)
  | bitXor => some (a ^^^ b)
  | bitOr => some (a ||| b)

/-- The value of an operator before a number. -/
def Unary.apply (o : Unary) (a : Int64) : Int64 :=
  match o with
  | negate => -a
  | logicalNot => ofBool (a == 0)
  | bitNot => ~~~a

/-- The number that a variable holds. One that is not set holds zero. -/
def lookUp (name : List Char) : Action Int64 := do
  let text := ((← get).value? name).getD []
  match valueOf? text with
  | some n => return n
  | none => fail ("Illegal number: " ++ toText text)

/-- The decimal text of a number. -/
def textOf (n : Int64) : List Char := (toString n.toInt).toList

/-- Ends the shell because of an expression. -/
def refuse {α : Type} (reason : String) (text : List Char) : Action α :=
  fail ("arithmetic expression: " ++ reason ++ ": \"" ++ toText text ++ "\"")

/-- The value of an operator in an expression with a text. -/
def Binary.apply (o : Binary) (text : List Char) (a b : Int64) : Action Int64 :=
  match o.apply? a b with
  | some n => return n
  | none => refuse "division by zero" text

/-- The value of an expression with a text. -/
def Expr.eval (text : List Char) : Expr → Action Int64
  | number n => return n
  | value name => lookUp name
  | unary o e => do return o.apply (← e.eval text)
  | binary o left right => do o.apply text (← left.eval text) (← right.eval text)
  | both left right => do
    if (← left.eval text) = 0 then return 0 else return ofBool ((← right.eval text) != 0)
  | either left right => do
    if (← left.eval text) = 0 then return ofBool ((← right.eval text) != 0) else return 1
  | choice test yes no => do if (← test.eval text) = 0 then no.eval text else yes.eval text
  | assign name o e => do
    let n ← e.eval text
    let n ← match o with
      | none => pure n
      | some o => o.apply text (← lookUp name) n
    setVariable name (textOf n)
    return n

/-- The decimal text of the value of an expression. -/
def evaluate (text : List Char) : Action (List Char) :=
  match parse? text with
  | some (e, true) => do return textOf (← e.eval text)
  | some (_, false) => refuse "expecting EOF" text
  | none => refuse "expecting primary" text

end SnapshotPreview.Shell.Arithmetic
