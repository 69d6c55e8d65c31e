import StreamEditor.Regex.Parser
import StreamEditor.Text.Basic

/-!
What can go wrong. A fault is found in a script or its surroundings and reported in the editor's own
words; the other failures end a run from inside.
-/

namespace StreamEditor

inductive Fault where
  | unreadable (name : Text)
  | unopenable (name : Text)
  | emptyRegexp
  | wrongAddressCount
  | unknownFunction (name : Char)
  | argumentsNotAllowed (function : Char) (arguments : Text)
  | unterminatedCommand
  | incorrectRange
  | incorrectFlags (flags : Text)
  | globalAndNumber
  | setNotClosed
  | replacementIncomplete
  | transliterationUnterminated
  | transliterationExtra
  | transliterationEscape
  | transliterationLengths
  | multipleQuantifier (pattern : Text)
  | nothingToRepeat (pattern : Text)
  | illegalEscape
  | undefinedLabel (name : Text)
  | parsing (reason : String)
  | tooFewArguments
  deriving DecidableEq, Repr

inductive Failure where
  | fault (f : Fault)
  | stringIndex
  | listIndex
  | noOpenBlock
  | tooManyDigits (count : Nat)
  | patternRejected
  | repetitionTooLarge
  | countTooLarge
  | setUnclosed
  | patternMissing
  | substitutionUnprepared
  | transliterationUnprepared
  | notCompiled
  | noProgram
  | fileNotFound (name : Text)
  | isDirectory (name : Text)
  | nulInName
  | nameTooLong (name : Text)
  | outputClosed
  | unencodable (first : Char) (start stop : Nat)
  | outOfSteps
  deriving DecidableEq, Repr

def Fault.message (f : Fault) : String :=
  "sed.py error: " ++
    match f with
    | unreadable name => "error reading " ++ String.ofList name
    | unopenable name => "unable to open " ++ String.ofList name
    | emptyRegexp => "empty regexp"
    | wrongAddressCount => "wrong number of addresses"
    | unknownFunction c => "unknown function: " ++ String.ofList [c]
    | argumentsNotAllowed c args =>
      "arguments not allowed: " ++ String.ofList [c] ++ " " ++ String.ofList args
    | unterminatedCommand => "unterminated command"
    | incorrectRange => "incorrect address range"
    | incorrectFlags flags => "regexp: incorrect flags: " ++ String.ofList flags
    | globalAndNumber => "regexp flags: g and number exclusive"
    | setNotClosed => "regexp: charset not closed"
    | replacementIncomplete => "subst: replacement incomplete"
    | transliterationUnterminated => "y: unterminated command"
    | transliterationExtra => "y: extra characters after command"
    | transliterationEscape => "y: not terminated argument"
    | transliterationLengths => "y: incorrect arguments"
    | multipleQuantifier pattern => "regexp: multiple quantifier " ++ String.ofList pattern
    | nothingToRepeat pattern => "regexp: nothing to repeat " ++ String.ofList pattern
    | illegalEscape => "regexp: illegal syntax"
    | undefinedLabel name => "undefined label: " ++ String.ofList name
    | parsing reason => "error parsing script: " ++ reason
    | tooFewArguments => "too few arguments"

namespace Failure

def ofName (error : String) (name : Text) : String :=
  error ++ ": " ++ String.ofList (Text.quoted name)

def message : Failure → String
  | fault f => f.message
  | stringIndex => "string index out of range"
  | listIndex => "list index out of range"
  | noOpenBlock => "pop from empty list"
  | tooManyDigits n =>
    "Exceeds the limit (4300 digits) for integer string conversion: value has " ++ toString n ++
      " digits; use sys.set_int_max_str_digits() to increase the limit"
  | patternRejected => "'error' object has no attribute 'message'"
  | repetitionTooLarge => "the repetition number is too large"
  | countTooLarge => "Python int too large to convert to C ssize_t"
  | setUnclosed => "cannot unpack non-iterable NoneType object"
  | patternMissing => "object of type 'NoneType' has no len()"
  | substitutionUnprepared => "'Command_s' object has no attribute 'regexp'"
  | transliterationUnprepared => "'NoneType' object is not subscriptable"
  | notCompiled => "'NoneType' object has no attribute 'groupindex'"
  | noProgram => "'NoneType' object is not iterable"
  | fileNotFound name => ofName "[Errno 2] No such file or directory" name
  | isDirectory name => ofName "[Errno 21] Is a directory" name
  | nulInName => "embedded null byte"
  | nameTooLong name => ofName "[Errno 36] File name too long" name
  | outputClosed => "I/O operation on closed file."
  | unencodable c i j =>
    "'latin-1' codec can't encode " ++
      (if j = i + 1 then
        "character '" ++ String.ofList (Text.codeEscape c) ++ "' in position " ++ toString i
      else "characters in position " ++ toString i ++ "-" ++ toString (j - 1)) ++
      ": ordinal not in range(256)"
  | outOfSteps => "out of steps"

def whileParsing : Failure → Failure
  | fault f => fault f
  | e => fault (.parsing e.message)

def ofRegex : Regex.Error → Failure
  | .malformed => patternRejected
  | .repetitionTooLarge => repetitionTooLarge
  | .tooManyDigits n => tooManyDigits n

end Failure

end StreamEditor
