/-
# `Toolbar.StandIn.Script` — what the scripts of a small language do

The text that is compiled for a script is the body of an operation that has a line of its own, so
its lines are counted from two.  A line that is no statement spoils the whole script, before
anything of it is done, and so does a line that is indented unlike the first one, or a body without
a single statement.  Otherwise statements are done one after the other, up to the first one that
fails or stops the script.
-/
import Toolbar.Action.Page
import Toolbar.Action.Source
import Toolbar.StandIn.Statement
import Toolbar.Text.Quoted

namespace Toolbar.StandIn

open Toolbar.Action Text

/-! ## Lines -/

/-- The lines that carriage returns inside a line make of it; one at its end belongs to the end of
the line. -/
def split (line : List Char) : List (List Char) :=
  splitOn ['\r'] (if line.getLast? == some '\r' then line.dropLast else line)

/-- How far a line is indented: up to which column, a tab reaching to the next multiple of eight,
and by how many characters. -/
structure Depth where
  column : Nat := 0
  count : Nat := 0
deriving DecidableEq, Repr

/-- The depth behind one more character; a form feed begins anew. -/
def Depth.behind (d : Depth) (c : Char) : Depth :=
  if c == ' ' then { column := d.column + 1, count := d.count + 1 }
  else if c == '\t' then { column := (d.column / 8 + 1) * 8, count := d.count + 1 }
  else {}

/-- The depth of a line. -/
def depth (line : List Char) : Depth :=
  (line.takeWhile Statement.isGap).foldl Depth.behind {}

/-- Why a script cannot be begun. -/
inductive Defect where
  /-- The line of that number is no statement. -/
  | line (number : Nat)
  /-- There are lines but no statement in them; the line of that number is the first behind them. -/
  | nothing (number : Nat)
  /-- The line of that number is indented further than the first one. -/
  | deeper (number : Nat)
  /-- The line of that number is indented less than the first one. -/
  | shallower (number : Nat)
  /-- How the line of that number is indented beside the first one depends on what a tab is. -/
  | mixedTabs (number : Nat)
deriving DecidableEq, Repr

/-- What is wrong with the depth of a line, if the first one has the depth `first`. -/
def Depth.defect? (first : Depth) (d : Depth) (number : Nat) : Option Defect :=
  if d.column == first.column then
    if d.count == first.count then none else some (.mixedTabs number)
  else if first.column < d.column then
    if d.count ≤ first.count then some (.mixedTabs number) else some (.deeper number)
  else some (.shallower number)

/-- The statements of numbered lines, the first of which sets the depth of all if there is none
yet, or what is wrong with the first line that is not as it should be. -/
def statements (first : Option Depth) : List (List Char × Nat) → Except Defect (List Statement)
  | [] => .ok []
  | (line, number) :: rest =>
      if Statement.isWordless line then statements first rest
      else
        let d := depth line
        match (first.getD d).defect? d number, Statement.ofLine? line with
        | some defect, _ => .error defect
        | none, none => .error (.line number)
        | none, some s => (statements (some (first.getD d)) rest).map (s :: ·)

/-- The statements of a text that is compiled for a script: lines without a statement are a defect,
and a carriage return that ends the last of them counts as a line of its own. -/
def read (source : String) : Except Defect (List Statement) :=
  let body := ((Source.linesFrom [] source.toList).drop 1).dropLast
  let lines := body.flatMap split
  if lines.all Statement.isWordless then
    let ending := if (body.getLast?.bind (·.getLast?)) == some '\r' then 1 else 0
    .error (.nothing (lines.length + ending + 1))
  else statements none (lines.zipIdx 2)

namespace Defect

/-- The number of the line where a defect is noticed. -/
def number : Defect → Nat
  | line n | nothing n | deeper n | shallower n | mixedTabs n => n

/-- The text of a defect, its place apart. -/
def text : Defect → String
  | line _ => "invalid syntax"
  | nothing _ => "expected an indented block after function definition on line 1"
  | deeper _ => "unexpected indent"
  | shallower _ => "unindent does not match any outer indentation level"
  | mixedTabs _ => "inconsistent use of tabs and spaces in indentation"

end Defect

/-! ## Failures -/

/-- The failure to compile a script. -/
def Defect.raised (d : Defect) : Raised :=
  let kind := match d with
    | .line _ => "SyntaxError"
    | .nothing _ | .deeper _ | .shallower _ => "IndentationError"
    | .mixedTabs _ => "TabError"
  .ofText kind (d.text ++ " (<action-script>, line " ++ toString d.number ++ ")")

/-- A value has no parts. -/
def noParts (v : Value) : Raised :=
  .ofText "TypeError" ("'" ++ kindOf v ++ "' object is not subscriptable")

/-- The parts of a text or list are not reached by keys. -/
def noKeys (message : String) : Raised :=
  .ofText "TypeError" message

/-- The kinds of failure that a script can name and that have the text that they are given. -/
def failureKinds : List String :=
  ["ArithmeticError", "AssertionError", "AttributeError", "BlockingIOError", "BrokenPipeError",
    "BufferError", "BytesWarning", "ChildProcessError", "ConnectionAbortedError",
    "ConnectionError", "ConnectionRefusedError", "ConnectionResetError", "DeprecationWarning",
    "EOFError", "EncodingWarning", "Exception", "FileExistsError", "FileNotFoundError",
    "FloatingPointError", "FutureWarning", "ImportError", "ImportWarning", "IndexError",
    "InterruptedError", "IsADirectoryError", "KeyError", "LookupError", "MemoryError",
    "ModuleNotFoundError", "NameError", "NotADirectoryError", "NotImplementedError", "OSError",
    "OverflowError", "PendingDeprecationWarning", "PermissionError", "ProcessLookupError",
    "RecursionError", "ReferenceError", "ResourceWarning", "RuntimeError", "RuntimeWarning",
    "StopAsyncIteration", "SyntaxWarning", "SystemError", "TimeoutError", "TypeError",
    "UnboundLocalError", "UnicodeError", "UnicodeWarning", "UserWarning", "ValueError",
    "Warning", "ZeroDivisionError"]

/-- The kinds of failure whose text is never empty: without one it is `None`. -/
def syntaxKinds : List String :=
  ["IndentationError", "SyntaxError", "TabError"]

/-- Other names of kinds of failure. -/
def kindAliases : List (String × String) :=
  [("EnvironmentError", "OSError"), ("IOError", "OSError")]

/-- The kinds of failure that want more than a text, and how many arguments they want. -/
def demandingKinds : List (String × Nat) :=
  [("UnicodeDecodeError", 5), ("UnicodeEncodeError", 5), ("UnicodeTranslateError", 4)]

/-- The text of what a failure is raised with.  An integer with too many digits has none, and asking
for its text fails. -/
def Message.wording (kind : String) : Message → Except String String
  | .text s => .ok (if kind == "KeyError" then quoted s else s)
  | .number n => match Number.intText? n with
      | some s => .ok s
      | none => .error "ValueError"

/-- The failure that a script raises by naming its kind.  A script that ends an iteration ends none,
which is a failure of another kind. -/
def raisedBy (name : String) (message : Option Message) : Raised :=
  let kind := (kindAliases.lookup name).getD name
  if failureKinds.contains kind then ⟨kind, (message.map (·.wording kind)).getD (.ok "")⟩
  else if syntaxKinds.contains kind then ⟨kind, (message.map (·.wording kind)).getD (.ok "None")⟩
  else if kind == "StopIteration" then
    .ofText "RuntimeError" "coroutine raised StopIteration"
  else match demandingKinds.lookup kind with
    | some count => .ofText "TypeError" ("function takes exactly " ++ toString count
        ++ " arguments (" ++ (if message.isSome then "1" else "0") ++ " given)")
    | none => .ofText "NameError" ("name " ++ quoted kind ++ " is not defined")

/-! ## Values -/

/-- The part of a value under a key. -/
def readKey (v : Value) (key : String) : Except Raised Value :=
  match v with
  | .map fields => match Fields.get? key fields with
      | some v => .ok v
      | none => .error (.ofText "KeyError" (quoted key))
  | .text _ => .error (noKeys "string indices must be integers, not 'str'")
  | .list _ => .error (noKeys "list indices must be integers or slices, not str")
  | v => .error (noParts v)

/-- The record with a field set. -/
def writeKey (record : Value) (key : String) (v : Value) : Except Raised Value :=
  match record with
  | .map fields => .ok (.map (Fields.set key v fields))
  | .list _ => .error (noKeys "list indices must be integers or slices, not str")
  | w => .error (.ofText "TypeError"
      ("'" ++ kindOf w ++ "' object does not support item assignment"))

/-- The attribute of a value, which must be there. -/
def readAttribute (page : Page) (v : Value) (name : String) : Except Raised Value :=
  let missing : Raised := .ofText "AttributeError"
    ("'" ++ kindOf v ++ "' object has no attribute " ++ quoted name)
  match v with
  | .map _ => .error missing
  | v => match page.attributeOf v name with
      | .ok .null | .error _ => .error missing
      | .ok w => .ok w

/-- The value of an operand. -/
def Operand.value (record : Value) : Operand → Except Raised Value
  | .text s => .ok (.text s)
  | .field key => readKey record key

/-- The value of what is called. -/
def Callee.value (page : Page) (c : Callee) : Except Raised Value := do
  let v ← c.keys.foldlM readKey page.context
  match c.last with
  | none => return v
  | some name => readAttribute page v name

/-! ## Statements -/

/-- How a statement ends that waits for an answer. -/
def waited (a : Action.Answer) : Ending :=
  match a.ending with
  | .done => if a.awaitable then .done
      else .failed (.ofText "TypeError" "object NoneType can't be used in 'await' expression")
  | ending => ending

/-- What a call in a statement leaves: without waiting, what has to be waited for does not happen. -/
def callIn (waits : Bool) (f v record : Value) (page : Page) : Run :=
  if page.isCallable f then
    let a := page.answer f [v]
    if waits then { effects := [.called f [v]], record, page, ending := waited a }
    else if a.awaitable then { record, page }
    else { effects := [.called f [v]], record, page, ending := a.ending }
  else { record, page, ending := .failed (.notCallable f) }

/-- What a statement leaves. -/
def Statement.run (record : Value) (page : Page) : Statement → Run
  | .pass | .stop => { record, page }
  | .fail kind message => { record, page, ending := .failed (raisedBy kind message) }
  | .call waits callee e =>
      match callee.value page with
      | .error e => { record, page, ending := .failed e }
      | .ok f => match e.value record with
          | .error e => { record, page, ending := .failed e }
          | .ok v => callIn waits f v record page
  | .set key e =>
      match (e.value record).bind (writeKey record key) with
      | .ok record => { record, page }
      | .error e => { record, page, ending := .failed e }
  | .divideByZero =>
      { record, page, ending := .failed (.ofText "ZeroDivisionError" "division by zero") }
  | .callUnknown name =>
      { record, page,
        ending := .failed (.ofText "NameError" ("name " ++ quoted name ++ " is not defined")) }

/-- What a list of statements leaves. -/
def runFrom (record : Value) (page : Page) : List Statement → Run
  | [] => { record, page }
  | .stop :: _ => { record, page }
  | s :: rest =>
      let r := s.run record page
      match r.ending with
      | .done =>
          let r' := runFrom r.record r.page rest
          { r' with effects := r.effects ++ r'.effects }
      | _ => r

/-- What the text of a script does. -/
def compile (source : String) : Except Raised (Value → Page → Run) :=
  if source.toList.contains '\x00' then
    .error (.ofText "ValueError" "source code string cannot contain null bytes")
  else match read source with
    | .error d => .error d.raised
    | .ok statements => .ok fun record page => runFrom record page statements

end Toolbar.StandIn
