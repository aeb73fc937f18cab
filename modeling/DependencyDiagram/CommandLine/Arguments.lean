import DependencyDiagram.CommandLine.Options

/-!
# Arguments of the command line

Arguments are read from left to right, and the first one that is not acceptable ends the
reading. So does a request for the version or for help, which makes everything behind it
irrelevant.

An option is named in full after two dashes; two of them also have a letter after one dash.
A value follows an equals sign or stands in the next argument, where it must not begin with
a dash unless it is a single dash. A letter's value may also follow it directly. Switches
take no value. Only two options may be repeated. There are no arguments besides options.
-/

namespace DependencyDiagram

/-- The options of the command line. What tells them apart in reading is whether they take a
value and whether they may be repeated; otherwise one reader serves them all. -/
inductive OptionName where
  | input
  | view
  | custom
  | nested
  | ungroupSingle
  | shortLabels
  | showLeafLabels
  | showGroupLabels
  | verticalAlign
  | maxNodes
  | maxEdges
  | expand
  | hide
  | parentEdges
  | sideTable
  | output
  | help
  | version
deriving DecidableEq, Repr

namespace OptionName

/-- The name of an option behind two dashes. -/
def word : OptionName → String
  | input => "input"
  | view => "view"
  | custom => "custom"
  | nested => "nested"
  | ungroupSingle => "ungroup-single"
  | shortLabels => "short-labels"
  | showLeafLabels => "show-leaf-labels"
  | showGroupLabels => "show-group-labels"
  | verticalAlign => "vertical-align"
  | maxNodes => "max-nodes"
  | maxEdges => "max-edges"
  | expand => "expand"
  | hide => "hide"
  | parentEdges => "parent-edges"
  | sideTable => "side-table"
  | output => "output"
  | help => "help"
  | version => "version"

instance : Vocabulary OptionName where
  values := [input, view, custom, nested, ungroupSingle, shortLabels, showLeafLabels,
    showGroupLabels, verticalAlign, maxNodes, maxEdges, expand, hide, parentEdges, sideTable,
    output, help, version]
  word := word
  complete name := by cases name <;> decide
  distinct left right := by cases left <;> cases right <;> decide

/-- The option that a letter behind one dash names. -/
def ofLetter? : Char → Option OptionName
  | 'i' => some input
  | 'o' => some output
  | 'h' => some help
  | 'V' => some version
  | _ => none

/-- An option that takes no value. -/
def isSwitch : OptionName → Bool
  | showGroupLabels | verticalAlign | parentEdges | help | version => true
  | _ => false

/-- An option that may be given more than once. -/
def mayRepeat : OptionName → Bool
  | expand | hide => true
  | _ => false

end OptionName

/-- What is wrong with an argument, or with all of them together. The first fault from the
left is reported. That the input is missing shows only when all arguments are read. -/
inductive ArgumentFault where
  | unknown (argument : String)
  | missingValue (name : OptionName)
  | unneededValue (name : OptionName)
  | badValue (name : OptionName) (value : String)
  | repeated (name : OptionName)
  | missingInput
deriving DecidableEq, Repr

/-- What was read so far. Options that were not given yet have their defaults, and the names
are kept to notice an option that is given twice. -/
structure GivenArguments where
  names : List OptionName
  input : Option String
  custom : Option String
  view : ViewKind
  display : DisplayOptions
  filter : FilterOptions
  sideTable : Option String
  output : Option String
deriving DecidableEq, Repr

/-- What the arguments ask for. Help and version need no input, and nothing is read or
written for them. -/
inductive Invocation where
  | run (options : RunOptions) (output : Option String)
  | help
  | version
deriving DecidableEq, Repr

namespace GivenArguments

/-- Before the first argument. -/
def none : GivenArguments :=
  ⟨[], .none, .none, .references, .standard, .none, .none, .none⟩

/-- A path must not be empty. -/
def path? (value : String) : Option String := if value = "" then .none else some value

/-- A truth value is one of two words. -/
def bool? (value : String) : Option Bool :=
  if value = "true" then some true else if value = "false" then some false else .none

/-- A number of sixty-four bits. -/
def number? (value : String) : Option Nat := Text.natural? Text.maxWord64 value

/-- Store the value of an option, if it is one that the option can have. -/
def store? (given : GivenArguments) (name : OptionName) (value : String) : Option GivenArguments :=
  let display := given.display
  match name with
  | .input => (path? value).map (fun path => { given with input := some path })
  | .custom => (path? value).map (fun path => { given with custom := some path })
  | .sideTable => (path? value).map (fun path => { given with sideTable := some path })
  | .output => (path? value).map (fun path => { given with output := some path })
  | .view => (ViewKind.ofArgument value).toOption.map (fun kind => { given with view := kind })
  | .nested => (bool? value).map (fun on => { given with display := { display with nested := on } })
  | .ungroupSingle =>
    (bool? value).map (fun on => { given with display := { display with ungroupSingle := on } })
  | .shortLabels =>
    (bool? value).map (fun on => { given with display := { display with shortLabels := on } })
  | .showLeafLabels =>
    (bool? value).map (fun on => { given with display := { display with showLeafLabels := on } })
  | .maxNodes =>
    (number? value).map (fun limit => { given with display := { display with maxNodes := limit } })
  | .maxEdges =>
    (number? value).map (fun limit => { given with display := { display with maxEdges := limit } })
  | .expand =>
    some { given with filter := { given.filter with expand := given.filter.expand ++ [value] } }
  | .hide => some { given with filter := { given.filter with hide := given.filter.hide ++ [value] } }
  | _ => .none

/-- Turn a switch on. -/
def turnOn (given : GivenArguments) (name : OptionName) : GivenArguments :=
  match name with
  | .showGroupLabels => { given with display := { given.display with showGroupLabels := true } }
  | .verticalAlign => { given with display := { given.display with verticalAlign := true } }
  | .parentEdges => { given with filter := { given.filter with parentEdges := true } }
  | _ => given

/-- Note that an option was given; most may be given only once. -/
def note (given : GivenArguments) (name : OptionName) : Except ArgumentFault GivenArguments :=
  if name ∈ given.names ∧ name.mayRepeat = false then .error (.repeated name)
  else .ok { given with names := name :: given.names }

/-- Accept an option with its value. -/
def accept (given : GivenArguments) (name : OptionName) (value : String) :
    Except ArgumentFault GivenArguments := do
  match (← given.note name).store? name value with
  | some after => return after
  | .none => throw (.badValue name value)

/-- What was asked for once all arguments are read. -/
def finish (given : GivenArguments) : Except ArgumentFault Invocation :=
  match given.input with
  | .none => .error .missingInput
  | some input =>
    .ok (.run ⟨input, given.custom, given.view, given.display, given.filter, given.sideTable⟩
      given.output)

end GivenArguments

/-- An option as an argument names it: the option, and a value in the same argument. If
there is no value in the argument and the option needs one, the next argument is its value. -/
structure NamedOption where
  name : OptionName
  value : Option String
deriving DecidableEq, Repr

/-- The option behind two dashes, cut at the first equals sign. -/
def longOption? (text : String) : Option NamedOption :=
  match Text.cutFirst? '=' text with
  | some (name, value) => (Vocabulary.read? name).map (fun name => ⟨name, some value⟩)
  | none => (Vocabulary.read? text).map (fun name => ⟨name, none⟩)

/-- The value that directly follows a letter; an equals sign in front is no part of it. -/
def letterValue? : List Char → Option String
  | [] => none
  | '=' :: rest => some (String.ofList rest)
  | rest => some (String.ofList rest)

/-- The option that an argument names. What follows the letter of a switch is left to it. -/
def namedOption? (argument : String) : Option NamedOption :=
  match argument.toList with
  | '-' :: '-' :: rest => longOption? (String.ofList rest)
  | '-' :: letter :: rest =>
    (OptionName.ofLetter? letter).map (fun name =>
      ⟨name, if name.isSwitch then none else letterValue? rest⟩)
  | _ => none

/-- The argument can be the value of the option before it. -/
def standsAsValue (argument : String) : Bool := argument == "-" || !Text.beginsWith "-" argument

/-- Read arguments behind those that were given before. An option without its value awaits
it in the next argument. -/
def readArguments (given : GivenArguments) (awaiting : Option OptionName) :
    List String → Except ArgumentFault Invocation
  | [] =>
    match awaiting with
    | none => given.finish
    | some name => .error (.missingValue name)
  | argument :: rest =>
    match awaiting, namedOption? argument with
    | some name, _ =>
      if standsAsValue argument then do readArguments (← given.accept name argument) none rest
      else .error (.missingValue name)
    | none, some ⟨.help, none⟩ => .ok .help
    | none, some ⟨.version, none⟩ => .ok .version
    | none, some ⟨name, some value⟩ =>
      if name.isSwitch then .error (.unneededValue name)
      else do readArguments (← given.accept name value) none rest
    | none, some ⟨name, none⟩ =>
      if name.isSwitch then do readArguments ((← given.note name).turnOn name) none rest
      else readArguments given (some name) rest
    | none, none =>
      if argument = "--" ∧ rest = [] then given.finish else .error (.unknown argument)

/-- What the arguments of a command line ask for. -/
def Invocation.ofArguments (arguments : List String) : Except ArgumentFault Invocation :=
  readArguments GivenArguments.none none arguments

end DependencyDiagram
