import StreamEditor.Text.Basic

/-!
The words of a command line. Options have one letter, switches can be written together, and an
option with a value takes the rest of its word or the word after it. One word that is no option
names the input.
-/

namespace StreamEditor.CommandLine

inductive Switch where
  | help
  | helpPage
  | version
  | quiet
  | extended
  | list
  deriving DecidableEq, Repr

inductive Field where
  | scriptFile
  | script
  deriving DecidableEq, Repr

inductive Kind where
  | switch (s : Switch)
  | field (f : Field)
  deriving DecidableEq, Repr

def kind? : Char → Option Kind
  | 'h' => some (.switch .help)
  | 'H' => some (.switch .helpPage)
  | 'v' => some (.switch .version)
  | 'f' => some (.field .scriptFile)
  | 'e' => some (.field .script)
  | 'n' => some (.switch .quiet)
  | 'r' => some (.switch .extended)
  | 'd' => some (.switch .list)
  | _ => none

structure Options where
  switches : List Switch := []
  scriptFile : Text := []
  script : Text := []
  input : Option Text := none
  deriving DecidableEq, Repr

inductive UsageError where
  | ignoredArgument (letter : Char) (argument : Text)
  | expectedArgument (letter : Char)
  | unrecognized (words : List Text)
  deriving DecidableEq, Repr

def UsageError.message : UsageError → Text
  | ignoredArgument c argument =>
    "argument -".toList ++ c :: ": ignored explicit argument ".toList ++ Text.quoted argument
  | expectedArgument c => "argument -".toList ++ c :: ": expected one argument".toList
  | unrecognized words => "unrecognized arguments: ".toList ++ Text.join [' '] words

namespace Options

def has (o : Options) (s : Switch) : Bool := o.switches.contains s

def turnOn (o : Options) (s : Switch) : Options := { o with switches := s :: o.switches }

def fill (o : Options) (f : Field) (value : Text) : Options :=
  let value := if value = ['-', '-'] then [] else value
  match f with
  | .scriptFile => { o with scriptFile := value }
  | .script => { o with script := value }

end Options

inductive Word where
  | option (letter : Char) (kind : Kind) (attached : Option Text)
  | unknown
  | plain
  | separator
  deriving DecidableEq, Repr

def readsAsNumber (t : Text) : Bool :=
  let t := if t.getLast? = some '\n' then t.dropLast else t
  match t.dropWhile Text.isDecimal with
  | [] => !t.isEmpty
  | '.' :: rest => !rest.isEmpty && rest.all Text.isDecimal
  | _ => false

/-- A word that starts with a hyphen and no option's letter is plain if it is a negative number or
has a blank in it. -/
def Word.classify (w : Text) : Word :=
  match w with
  | '-' :: c :: rest =>
    match kind? c, rest with
    | some k, [] => .option c k none
    | some k, '=' :: value => .option c k (some value)
    | some k, value => .option c k (some value)
    | none, _ =>
      if readsAsNumber (c :: rest) || (c :: rest).contains ' ' then .plain else .unknown
  | _ => .plain

def classifyAll : List Text → List (Word × Text)
  | [] => []
  | w :: ws =>
    if w = ['-', '-'] then (.separator, w) :: ws.map fun w => (.plain, w)
    else (Word.classify w, w) :: classifyAll ws

def cluster (o : Options) (letter : Char) :
    Kind → Text → Except UsageError (Options × Option (Char × Field))
  | .field f, [] => .ok (o, some (letter, f))
  | .field f, value => .ok (o.fill f value, none)
  | .switch s, [] => .ok (o.turnOn s, none)
  | .switch s, c :: rest =>
    match kind? c with
    | none => .error (.ignoredArgument letter (c :: rest))
    | some k => cluster (o.turnOn s) c k rest

def openWord (o : Options) (letter : Char) (kind : Kind) (attached : Option Text) :
    Except UsageError (Options × Option (Char × Field)) :=
  match kind, attached with
  | .field f, some [] => .ok (o.fill f [], none)
  | .switch _, some [] => .error (.ignoredArgument letter [])
  | _, _ => cluster o letter kind (attached.getD [])

def take (o : Options) (taken : Bool) (extra : List Text) :
    List (Word × Text) → Except UsageError (Options × List Text)
  | [] => .ok (o, extra.reverse)
  | (.unknown, w) :: ws => take o taken (w :: extra) ws
  | (.option letter kind attached, _) :: ws =>
    match openWord o letter kind attached, ws with
    | .error e, _ => .error e
    | .ok (o, none), ws => take o taken extra ws
    | .ok (o, some (_, f)), (.plain, value) :: ws => take (o.fill f value) taken extra ws
    | .ok (_, some (c, _)), _ => .error (.expectedArgument c)
  | (.plain, w) :: ws =>
    if taken then take o taken (w :: extra) ws
    else
      match ws with
      | (.separator, _) :: ws => take { o with input := some w } true extra ws
      | ws => take { o with input := some w } true extra ws
  | (.separator, w) :: ws =>
    if taken then take o taken (w :: extra) ws
    else
      match ws with
      | (_, w) :: ws => take { o with input := some w } true extra ws
      | [] => take o true extra []

def Options.parse (words : List Text) : Except UsageError Options :=
  match take {} false [] (classifyAll words) with
  | .error e => .error e
  | .ok (o, []) => .ok o
  | .ok (_, extra) => .error (.unrecognized extra)

end StreamEditor.CommandLine
