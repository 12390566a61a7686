import JavaSketch.Run

/-!
# Options of the command line

The arguments are read from left to right.  An option is named by its long name
or by any beginning of it that fits no other option; its value is the next
argument, or follows an equals sign.  Of an option that is given twice the last
value counts.

**Rules.**
* An argument that starts with a hyphen is a value only if it is a number, holds
  a space, or is a hyphen alone.
* The letter of the short option for help may be repeated, also after an equals
  sign; no other letter goes with it.
* Asking for help ends the reading at once, as does the first mistake; an
  argument that belongs to no option is a mistake that is found at the end, and
  a beginning of several options one that is found before anything else.
* Nothing after a double hyphen is an option.
-/

namespace JavaSketch
namespace Command

/-- What the arguments say. -/
structure Options where
  /-- The source file or directory. -/
  path : Option String
  /-- The name of the mode. -/
  mode : String
  /-- Where documents and tables go. -/
  outDir : Option String
  /-- Where the table of variables goes. -/
  table : Option String
  /-- Whether only warnings are shown. -/
  quiet : Bool
  /-- Whether some argument belongs to no option. -/
  hasStray : Bool
  deriving DecidableEq, Repr

/-- An option of the command. -/
inductive Flag
  | help
  | path
  | mode
  | outDir
  | table
  | quiet
  deriving DecidableEq, Repr

namespace Flag

/-- The long name of an option. -/
def name : Flag → String
  | help => "--help"
  | path => "--path"
  | mode => "--mode"
  | outDir => "--out-dir"
  | table => "--csv"
  | quiet => "--quiet"

/-- All options. -/
def all : List Flag :=
  [help, path, mode, outDir, table, quiet]

/-- Whether an option is followed by a value. -/
def takesValue : Flag → Bool
  | help => false
  | quiet => false
  | _ => true

end Flag

/-- What one argument is, taken by itself. -/
inductive Argument
  /-- A value, or an argument that belongs to no option. -/
  | plain
  /-- An option, with the value that follows an equals sign. -/
  | option (flag : Flag) (attached : Option String)
  /-- Something like an option that is none. -/
  | unknown
  /-- The beginning of several options. -/
  | ambiguous

/-- Why the arguments do not say what to do. -/
inductive Refusal
  /-- The user asked for help. -/
  | helpWanted
  /-- The arguments cannot be followed. -/
  | misuse
  deriving DecidableEq, Repr

/-- Whether all characters are decimal digits, and there is one. -/
def isDigits (cs : List Char) : Bool :=
  cs != [] && cs.all Char.isDigit

/-- Whether an argument is a number below zero, with or without a fraction. -/
def isNegativeNumber (argument : List Char) : Bool :=
  match argument with
  | '-' :: digits =>
      isDigits digits
        || (match Text.pieces '.' digits with
          | [whole, fraction] => (whole = [] || isDigits whole) && isDigits fraction
          | _ => false)
  | _ => false

/-- What an argument with a hyphen in front is if it names no option. -/
def unnamed (argument : String) : Argument :=
  if isNegativeNumber argument.toList || argument.toList.contains ' ' then .plain
  else .unknown

/-- An option by its name or a beginning of it. -/
def named (argument name : String) (attached : Option String) : Argument :=
  match Flag.all.filter fun flag => name.toList.isPrefixOf flag.name.toList with
  | [flag] => .option flag attached
  | [] => unnamed argument
  | _ => .ambiguous

/-- What an argument is, taken by itself. -/
def classify (argument : String) : Argument :=
  match argument.toList with
  | '-' :: '-' :: _ =>
      match Text.pieces '=' argument.toList with
      | name :: value :: more =>
          named argument (String.ofList name)
            (some (String.ofList (Text.joinWith '=' (value :: more))))
      | _ => named argument argument none
  | ['-', 'h'] => .option .help none
  | '-' :: 'h' :: rest =>
      let letters := if rest.head? = some '=' then rest.tail else rest
      if letters ≠ [] ∧ letters.all (· == 'h') then .option .help none
      else .option .help (some (String.ofList letters))
  | '-' :: _ :: _ => unnamed argument
  | _ => .plain

/-- Whether an argument can be the value of an option. -/
def isValue (argument : String) : Bool :=
  match classify argument with
  | .plain => true
  | _ => false

/-- The options with the value of one of them changed. -/
def setValue (options : Options) (flag : Flag) (value : String) :
    Except Refusal Options :=
  match flag with
  | .path => .ok { options with path := some value }
  | .mode =>
      if (Mode.ofName? value).isSome then .ok { options with mode := value }
      else .error .misuse
  | .outDir => .ok { options with outDir := some value }
  | .table => .ok { options with table := some value }
  | .help => .error .misuse
  | .quiet => .error .misuse

/-- The effect of an option that takes no value. -/
def setSwitch (options : Options) (flag : Flag) : Except Refusal Options :=
  match flag with
  | .help => .error .helpWanted
  | .quiet => .ok { options with quiet := true }
  | _ => .error .misuse

/-- Reads arguments on top of the options that came before them. -/
def readFrom (options : Options) : List String → Except Refusal Options
  | [] => .ok options
  | argument :: rest =>
      if argument = "--" then .ok { options with hasStray := true }
      else
        match classify argument with
        | .plain => readFrom { options with hasStray := true } rest
        | .unknown => readFrom { options with hasStray := true } rest
        | .ambiguous => .error .misuse
        | .option flag (some value) => do readFrom (← setValue options flag value) rest
        | .option flag none =>
            if flag.takesValue then
              match rest with
              | value :: more =>
                  if isValue value then do readFrom (← setValue options flag value) more
                  else .error .misuse
              | [] => .error .misuse
            else do readFrom (← setSwitch options flag) rest

/-- Whether an argument is the beginning of several options. -/
def isAmbiguous (argument : String) : Bool :=
  match classify argument with
  | .ambiguous => true
  | _ => false

/-- The options before any argument is read. -/
def initial : Options :=
  { path := none, mode := Mode.pseudocode.name, outDir := none, table := none,
    quiet := false, hasStray := false }

/-- Reads the arguments of a command, which must name a path. -/
def read (arguments : List String) : Except Refusal Options := do
  if (arguments.takeWhile (· ≠ "--")).any isAmbiguous then throw .misuse
  let options ← readFrom initial arguments
  if options.path.isNone || options.hasStray then throw .misuse
  return options

end Command
end JavaSketch
