import Turnstile.Command.LogLevel
import Turnstile.Pattern.Refusal
import Turnstile.Text.Cut
import Turnstile.Text.NumberText

/-!
# Log filters from the environment

A filter is a list of directives between commas. A directive is a level, a target, or a target or a
span of it with a level, as in `net[read{size=4}]=warn`, where a field of a span may have a value.
The notices of this program follow its own option whatever a filter says; all that a filter leads to
is a remark about each of its directives that cannot be read.
-/

set_option autoImplicit false
set_option relaxedAutoImplicit false

namespace Turnstile

namespace LogFilter

/-- Why a directive cannot be read. -/
inductive Fault
  /-- Its parts do not follow one another as they should. -/
  | malformed
  /-- What stands in the place of a level is none. -/
  | unknownLevel
  /-- The value of a field is a pattern that cannot be used. -/
  | unusableValue (r : Pattern.Refusal)
deriving DecidableEq, Repr

def Fault.message : Fault → String
  | .malformed => "invalid filter directive"
  | .unknownLevel =>
    "error parsing level filter: expected one of \"off\", \"error\", \"warn\", \"info\", " ++
      "\"debug\", \"trace\", or a number 0-5"
  | .unusableValue r => "invalid field filter: " ++ r.message

/-- The characters behind so many bytes. -/
def behind : Nat → List Char → List Char
  | 0, cs => cs
  | _, [] => []
  | n + 1, c :: cs => behind (n + 1 - c.utf8Size) cs

/-- The characters behind `first` bytes and not behind `last` of them. -/
def between (first last : Nat) (cs : List Char) : List Char :=
  fittingChars (last - first) (behind first cs)

/-- The value in a field: what stands between the first two equals signs, or behind the only one. -/
def value? (field : List Char) : Option (List Char) :=
  match field.dropWhile (· ≠ '=') with
  | [] => none
  | _ :: rest => some (rest.takeWhile (· ≠ '='))

/-- What is wrong with a field, if anything is. A value is a number or a pattern. -/
def fieldFault? (field : List Char) : Option Fault :=
  if field.isEmpty then some .malformed
  else
    match value? field with
    | none => none
    | some v => if isNumberText v then none else (Pattern.refusal? v).map .unusableValue

/-- How far into a directive a reader is. -/
inductive Phase
  | start
  /-- In the word at the start: a target, or the level of everything. -/
  | word
  /-- In the name of a span. -/
  | span
  /-- In a field of a span, with so many bytes in front of it. -/
  | field (offset : Nat)
  /-- Behind the fields of a span. -/
  | fields
  /-- Behind a span. -/
  | spanned
  /-- In a level, with so many bytes in front of it. -/
  | level (offset : Nat)
  /-- Behind what cannot be read. -/
  | refused (f : Fault)
deriving DecidableEq, Repr

/-- The phase after a character that stands behind `offset` bytes of a directive. -/
def Phase.next (directive : List Char) (p : Phase) (c : Char) (offset : Nat) : Phase :=
  let after := offset + c.utf8Size
  match p with
  | .start =>
    if c = '[' then .span
    else if isWordChar c || c = '-' || c = ':' || c = '_' then .word
    else .refused .malformed
  | .word => if c = '=' then .level after else if c = '[' then .span else .word
  | .span => if c = ']' then .spanned else if c = '\x7b' then .field after else .span
  | .field first =>
    if c = '\x7d' then
      match fieldFault? (between first offset directive) with
      | some f => .refused f
      | none => .fields
    else p
  | .fields => if c = ']' then .spanned else .refused .malformed
  | .spanned => if c = '=' then .level after else .refused .malformed
  | .level _ | .refused _ => p

/-- The phase of a directive after some characters. -/
def scan (directive cs : List Char) : Phase :=
  (cs.foldl (fun (p, n) c ↦ (p.next directive c n, n + c.utf8Size)) (.start, 0)).1

/-- What is wrong with a directive, if anything is. Space around a directive is passed over in the
search for its parts, but it counts in the offsets from which a field and the level are read, so
that only a directive without space in front of it has the parts that it seems to have. No level at
all is a level. -/
def fault? (directive : String) : Option Fault :=
  let cs := directive.toList
  match scan cs (trimmed cs) with
  | .word | .spanned => none
  | .level offset =>
    if (LogLevel.ofWord? (String.ofList (behind offset cs))).isSome then none
    else some .unknownLevel
  | .refused f => some f
  | _ => some .malformed

/-- The directives of a filter. -/
def directives (filter : String) : List String := (filter.splitOn ",").filter (· ≠ "")

/-- The remarks about a filter. -/
def remarks (filter : String) : List String :=
  (directives filter).filterMap fun d ↦
    (fault? d).map fun f ↦ "ignoring `" ++ d ++ "`: " ++ f.message

end LogFilter

end Turnstile
