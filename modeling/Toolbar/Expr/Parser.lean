/-
# `Toolbar.Expr.Parser` — expressions from lexemes

A predictive parser: one function for each rule of the grammar, each giving an expression and the
lexemes that follow it.  `room` counts how many more parentheses, argument lists and unary operators
may be opened around what is read.  The fuel bounds the calls; a call that reads no lexeme goes down
one rule, and there are fewer than twelve rules, so twelve for each lexeme suffice.
-/
import Toolbar.Expr.Basic
import Toolbar.Expr.Lexeme
import Toolbar.Number.Reading

namespace Toolbar.Expr

namespace Parser

open Text

/-- The next lexeme; there is always one, since the last lexeme of a source is never passed. -/
def peek : List Lexeme → Lexeme
  | [] => ⟨.stop, [], 0⟩
  | l :: _ => l

/-- What follows the operator `o`, when it comes next. -/
def passOp? (o : String) : List Lexeme → Option (List Lexeme)
  | [] => none
  | l :: ls => if l.kind == .op && String.ofList l.text == o then some ls else none

/-- The binary operator of a level that comes next, and what follows it. -/
def passBinary? (level : Nat) (ls : List Lexeme) : Option (BinaryOp × List Lexeme) :=
  (BinaryOp.atLevel level).findSome? fun o => (passOp? o.text ls).map (o, ·)

/-- The unary operator that comes next, and what follows it. -/
def passUnary? (ls : List Lexeme) : Option (UnaryOp × List Lexeme) :=
  UnaryOp.all.findSome? fun o => (passOp? o.text ls).map (o, ·)

/-- The refusal of the next lexeme. -/
def refuse {α : Type} (cause : String → Cause) (ls : List Lexeme) :
    Except Failure (α × List Lexeme) :=
  .error (.at (cause (String.ofList (peek ls).text)) (peek ls).position)

/-- What follows the operator `o`, which must come next. -/
def expect (o : String) (ls : List Lexeme) : Except Failure (List Lexeme) :=
  match passOp? o ls with
  | some rest => .ok rest
  | none => .error
      (.at (.expected o (String.ofList (peek ls).text)) (peek ls).position)

/-- The character that an escape stands for. -/
def escaped (c : Char) : Char :=
  if c == 'n' then '\n'
  else if c == 't' then '\t'
  else if c == 'r' then '\r'
  else if c == 'b' then Char.ofNat 0x08
  else if c == 'f' then Char.ofNat 0x0C
  else if c == '0' then Char.ofNat 0
  else c

/-- The characters that the inside of a text in quotes denotes. -/
def unescape : List Char → List Char
  | [] => []
  | '\\' :: c :: cs => escaped c :: unescape cs
  | c :: cs => c :: unescape cs

/-- Without the first and the last character. -/
def inside (cs : List Char) : List Char :=
  (cs.drop 1).dropLast

/-- The number that a lexeme denotes: an integer when it has digits only. -/
def number (cs : List Char) : Except Failure Value :=
  let s := String.ofList cs
  if cs.all isDigit then
    match Number.readInt s with
    | .ok i => .ok (.int i)
    | .error f => .error (.value f)
  else
    match Number.readReal? s with
    | some x => .ok (.real x)
    | none => .error (.value .malformed)

/-- The values of the words that are values. -/
def keyword? (s : String) : Option Value :=
  if s == "true" then some (.bool true)
  else if s == "false" then some (.bool false)
  else if s == "null" || s == "undefined" then some .null
  else none

/-- The value or root that a name stands for. -/
def name (l : Lexeme) : Except Failure Expr :=
  let s := String.ofList l.text
  match keyword? s with
  | some v => .ok (.literal v)
  | none =>
      match Root.ofText? s with
      | some r => .ok (.root r)
      | none => .error (.at (.unknownIdentifier s) l.position)

mutual
/-- An expression with everything that belongs to it. -/
def expr : (fuel room : Nat) → List Lexeme → Except Failure (Expr × List Lexeme)
  | 0, _, ls => refuse .unexpectedToken ls
  | _ + 1, 0, ls => .error (.at .tooDeep (peek ls).position)
  | fuel + 1, room + 1, ls => binary fuel room 0 ls
/-- Operands of the next level with the operators of this level between them. -/
def binary : (fuel room level : Nat) → List Lexeme → Except Failure (Expr × List Lexeme)
  | 0, _, _, ls => refuse .unexpectedToken ls
  | fuel + 1, room, level, ls =>
      if level < BinaryOp.levels then do
        let (left, rest) ← binary fuel room (level + 1) ls
        moreOperands fuel room level left rest
      else unary fuel room ls
/-- The operators and operands that follow `left` on a level. -/
def moreOperands :
    (fuel room level : Nat) → Expr → List Lexeme → Except Failure (Expr × List Lexeme)
  | 0, _, _, _, ls => refuse .unexpectedToken ls
  | fuel + 1, room, level, left, ls =>
      match passBinary? level ls with
      | none => .ok (left, ls)
      | some (op, rest) => do
          let (right, rest) ← binary fuel room (level + 1) rest
          moreOperands fuel room level (.binary left op right) rest
/-- An operand with its unary operators. -/
def unary : (fuel room : Nat) → List Lexeme → Except Failure (Expr × List Lexeme)
  | 0, _, ls => refuse .unexpectedToken ls
  | fuel + 1, room, ls =>
      match passUnary? ls with
      | none => postfixed fuel room ls
      | some (op, rest) =>
          match room with
          | 0 => .error (.at .tooDeep (peek ls).position)
          | room + 1 => do
              let (operand, rest) ← unary fuel room rest
              return (.unary op operand, rest)
/-- An operand with its members and calls. -/
def postfixed : (fuel room : Nat) → List Lexeme → Except Failure (Expr × List Lexeme)
  | 0, _, ls => refuse .unexpectedToken ls
  | fuel + 1, room, ls => do
      let (target, rest) ← primary fuel room ls
      moreSuffixes fuel room target rest
/-- The members and calls that follow `target`. -/
def moreSuffixes : (fuel room : Nat) → Expr → List Lexeme → Except Failure (Expr × List Lexeme)
  | 0, _, _, ls => refuse .unexpectedToken ls
  | fuel + 1, room, target, ls =>
      match passOp? "." ls with
      | none => .ok (target, ls)
      | some rest =>
          if (peek rest).kind == .name then
            let name := String.ofList (peek rest).text
            let rest := rest.drop 1
            match passOp? "(" rest with
            | none => moreSuffixes fuel room (.member target name) rest
            | some rest => do
                let (args, rest) ← arguments fuel room rest
                moreSuffixes fuel room (.call target name args) rest
          else refuse (fun _ => .memberNameMissing) rest
/-- The arguments up to the closing parenthesis. -/
def arguments : (fuel room : Nat) → List Lexeme → Except Failure (List Expr × List Lexeme)
  | 0, _, ls => refuse .unexpectedToken ls
  | fuel + 1, room, ls =>
      match passOp? ")" ls with
      | some rest => .ok ([], rest)
      | none => moreArguments fuel room ls
/-- At least one argument, up to the closing parenthesis. -/
def moreArguments : (fuel room : Nat) → List Lexeme → Except Failure (List Expr × List Lexeme)
  | 0, _, ls => refuse .unexpectedToken ls
  | fuel + 1, room, ls => do
      let (arg, rest) ← expr fuel room ls
      match passOp? ")" rest with
      | some rest => return ([arg], rest)
      | none =>
          let rest ← expect "," rest
          let (args, rest) ← moreArguments fuel room rest
          return (arg :: args, rest)
/-- A literal, a field, a root, or an expression in parentheses. -/
def primary : (fuel room : Nat) → List Lexeme → Except Failure (Expr × List Lexeme)
  | 0, _, ls => refuse .unexpectedToken ls
  | fuel + 1, room, ls =>
      let l := peek ls
      let rest := ls.drop 1
      match l.kind with
      | .number => do return (.literal (← number l.text), rest)
      | .text => .ok (.literal (.text (String.ofList (unescape (inside l.text)))), rest)
      | .field => .ok (.field (String.ofList (inside l.text)), rest)
      | .name => do return (← name l, rest)
      | .op | .stop =>
          match passOp? "(" ls with
          | none => refuse .unexpectedToken ls
          | some rest => do
              let (inner, rest) ← expr fuel room rest
              let rest ← expect ")" rest
              return (inner, rest)
end

end Parser

/-- The default of how many parentheses, argument lists and unary operators may be open at once. -/
def defaultDepth : Nat := 32

/-- The expression that a list of lexemes is, all of it. -/
def ofLexemes (depth : Nat) (ls : List Lexeme) : Except Failure Expr := do
  let (e, rest) ← Parser.expr (12 * ls.length + 12) depth ls
  let l := Parser.peek rest
  if l.kind == .stop then return e
  else .error (.at (.unexpectedToken (String.ofList l.text)) l.position)

/-- The expression that a text denotes. -/
def ofSource (depth : Nat) (source : String) : Except Failure Expr := do
  let ls ← Lexeme.ofSource source.toList
  ofLexemes depth ls

/-- The expression that a value denotes, which must be a text. -/
def ofValue (depth : Nat) (source : Value) : Except Failure Expr :=
  match source with
  | .text s => ofSource depth s
  | _ => .error (.refused .notText "$")

end Toolbar.Expr
