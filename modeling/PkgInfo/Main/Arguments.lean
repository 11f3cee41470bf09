import PkgInfo.Command.Basic

/-! The command line: which command its words ask for, or what is wrong with them. Words are taken in
order. An option that wants a value waits for the next word, and a value is looked at only when the
word behind it is taken, so of two faults the one that shows first counts. -/
namespace PkgInfo.Command

inductive UsageFault where
  | nothingGiven | missingCommand | unknownCommand | unknownArgument | missingArgument
  | missingValue | badValue | unwantedValue | repeated | helpAsked | versionAsked
  deriving DecidableEq, Repr

inductive Slot where
  | verbose | help | version | field | platformDependent | config | binding | json | output
  | file | marker
  deriving DecidableEq, Repr

inductive Kind where
  | flag | help | version | path | text | binding
  deriving DecidableEq, Repr

namespace Slot

def kind : Slot → Kind
  | verbose | platformDependent | json => .flag
  | help => .help
  | version => .version
  | config | output | file => .path
  | field | marker => .text
  | binding => .binding

def long? : Slot → Option Text
  | verbose => some "verbose".toList
  | help => some "help".toList
  | version => some "version".toList
  | field => some "field".toList
  | platformDependent => some "platform-dependent".toList
  | config => some "config".toList
  | binding => some "var".toList
  | json => some "json".toList
  | output => some "output".toList
  | file | marker => none

def short? : Slot → Option Char
  | verbose => some 'v'
  | help => some 'h'
  | version => some 'V'
  | field => some 'f'
  | platformDependent => some 'p'
  | config => some 'c'
  | output => some 'o'
  | binding | json | file | marker => none

def mayRepeat : Slot → Bool
  | field | binding => true
  | _ => false

def takesValue (s : Slot) : Bool :=
  match s.kind with
  | .path | .text | .binding => true
  | .flag | .help | .version => false

end Slot

inductive Verb where
  | show | check | eval | normalize
  deriving DecidableEq, Repr

namespace Verb

def all : List Verb := [.show, .check, .eval, .normalize]

def word : Verb → Text
  | .show => "show".toList
  | .check => "check".toList
  | .eval => "eval".toList
  | .normalize => "normalize".toList

def named? (text : Text) : Option Verb := all.find? fun v => v.word = text

def options : Verb → List Slot
  | .show => [.field, .platformDependent, .config, .binding, .json, .verbose, .help]
  | .check => [.verbose, .help]
  | .eval => [.config, .binding, .verbose, .help]
  | .normalize => [.output, .verbose, .help]

def operand : Verb → Slot
  | .eval => .marker
  | _ => .file

end Verb

structure Scan where
  given : List (Slot × Text)
  pending : Option (Slot × Option Text)
  trailing : Bool
  deriving DecidableEq, Repr

namespace Scan

def start : Scan := ⟨[], none, false⟩

def has (s : Scan) (slot : Slot) : Bool := s.given.any fun entry => entry.1 = slot

def fits (slot : Slot) (value : Text) : Except UsageFault Unit :=
  match slot.kind with
  | .path => if value = [] then .error .missingValue else .ok ()
  | .binding =>
    match bindingOfText value with
    | .ok _ => .ok ()
    | .error _ => .error .badValue
  | _ => .ok ()

def give (s : Scan) (slot : Slot) (value : Text) : Except UsageFault Scan :=
  if s.has slot && !slot.mayRepeat then .error .repeated
  else (fits slot value).map fun _ => {s with given := s.given ++ [(slot, value)]}

def settle (s : Scan) : Except UsageFault Scan :=
  match s.pending with
  | none => .ok s
  | some (_, none) => .error .missingValue
  | some (slot, some value) => {s with pending := none}.give slot value

def flag (s : Scan) (slot : Slot) : Except UsageFault Scan := do
  let s ← s.settle
  match slot.kind with
  | .help => .error .helpAsked
  | .version => .error .versionAsked
  | _ => s.give slot []

def valued (s : Scan) (slot : Slot) (attached : Option Text) : Except UsageFault Scan := do
  let s ← s.settle
  match attached with
  | some value => s.give slot value
  | none => .ok {s with pending := some (slot, none)}

def long (options : List Slot) (s : Scan) (word : Text) : Except UsageFault Scan :=
  let (name, attached) := match Text.splitOnce '=' word with
    | some (name, value) => (name, some value)
    | none => (word, none)
  match options.find? fun slot => slot.long? = some name with
  | none => .error .unknownArgument
  | some slot =>
    if slot.takesValue then s.valued slot attached
    else if attached.isSome then .error .unwantedValue
    else s.flag slot

def letters (options : List Slot) (s : Scan) : Text → Except UsageFault Scan
  | [] => .ok s
  | c :: rest =>
    match options.find? fun slot => slot.short? = some c with
    | none => .error .unknownArgument
    | some slot =>
      if slot.takesValue then
        s.valued slot (if rest = [] then none else some ((Text.stripLead? ['='] rest).getD rest))
      else (s.flag slot).bind fun s => letters options s rest

def plain (operand : Slot) (s : Scan) (word : Text) : Except UsageFault Scan :=
  match s.pending, s.trailing with
  | some (slot, none), false => .ok {s with pending := some (slot, some word)}
  | pending, _ =>
    if s.has operand || (pending.map Prod.fst) = some operand then .error .unknownArgument
    else s.settle.map fun s => {s with pending := some (operand, some word)}

def word (verb : Verb) (s : Scan) (word : Text) : Except UsageFault Scan :=
  if s.trailing then s.plain verb.operand word
  else match word with
    | ['-', '-'] => .ok {s with trailing := true}
    | '-' :: '-' :: rest => s.long verb.options rest
    | '-' :: c :: rest => s.letters verb.options (c :: rest)
    | _ => s.plain verb.operand word

def words (verb : Verb) (s : Scan) : List Text → Except UsageFault Scan
  | [] => s.settle
  | first :: rest => (s.word verb first).bind fun s => words verb s rest

def values (s : Scan) (slot : Slot) : List Text :=
  (s.given.filter fun entry => entry.1 = slot).map Prod.snd

def markers (s : Scan) : MarkerOptions :=
  ⟨(s.values .config).head?, (s.values .binding).filterMap fun text => (bindingOfText text).toOption⟩

def command (verb : Verb) (s : Scan) : Except UsageFault Command :=
  match s.values verb.operand with
  | [] => .error .missingArgument
  | operand :: _ =>
    .ok <| match verb with
      | .show => .show operand (s.values .field) (s.has .platformDependent) s.markers (s.has .json)
      | .check => .check operand
      | .eval => .eval operand s.markers
      | .normalize => .normalize operand (s.values .output).head?

end Scan

def ofWords (verb : Verb) (words : List Text) : Except UsageFault Command := do
  let s ← Scan.start.words verb words
  s.command verb

def helpWord : Text := "help".toList

def helpOn : List Text → UsageFault
  | [] => .helpAsked
  | [name] => if (Verb.named? name).isSome ∨ name = helpWord then .helpAsked else .unknownCommand
  | _ => .unknownCommand

def generalOptions : List Slot := [.verbose, .help, .version]

def ofArgumentsFrom (s : Scan) : List Text → Except UsageFault Command
  | [] => .error (if s.given = [] then .nothingGiven else .missingCommand)
  | first :: rest =>
    match Verb.named? first with
    | some verb => if s.trailing then .error .unknownArgument else ofWords verb rest
    | none =>
      if first = helpWord then .error (if s.trailing then .unknownArgument else helpOn rest)
      else if s.trailing then .error .unknownCommand
      else match first with
        | ['-', '-'] => ofArgumentsFrom {s with trailing := true} rest
        | '-' :: '-' :: word => (s.long generalOptions word).bind (ofArgumentsFrom · rest)
        | '-' :: c :: letters =>
          (s.letters generalOptions (c :: letters)).bind (ofArgumentsFrom · rest)
        | _ => .error .unknownCommand

def ofArguments (arguments : List Text) : Except UsageFault Command :=
  ofArgumentsFrom .start arguments

@[reducible] def words : CommandLine UsageFault := ⟨ofArguments⟩

end PkgInfo.Command
