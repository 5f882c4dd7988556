/-! Command-line arguments: options in their long and short forms, and what is left besides them. -/

namespace Schematron.Command

inductive Key
  | schema
  | config
  | namespaceFilter
  | suppressWarnings
  | format
  | verbose
  | version
  | help
deriving DecidableEq, Repr

namespace Key

def takesValue : Key → Bool
  | schema | config | namespaceFilter | format => true
  | suppressWarnings | verbose | version | help => false

def long : Key → String
  | schema => "--schema"
  | config => "--config"
  | namespaceFilter => "--namespace"
  | suppressWarnings => "--suppress-warnings"
  | format => "--format"
  | verbose => "--verbose"
  | version => "--version"
  | help => "--help"

def short? : Key → Option Char
  | schema => some 's'
  | config => some 'c'
  | namespaceFilter => some 'n'
  | format => some 'f'
  | version => some 'v'
  | suppressWarnings | verbose | help => none

end Key

structure Given where
  options : List (Key × String)
  others : List String
deriving DecidableEq, Repr

namespace Given

def empty : Given := ⟨[], []⟩

def addOptions (options : List (Key × String)) (given : Given) : Given :=
  { given with options := options ++ given.options }

def addOther (argument : String) (given : Given) : Given :=
  { given with others := argument :: given.others }

def has (given : Given) (key : Key) : Bool := given.options.any (·.1 == key)

def all (given : Given) (key : Key) : List String :=
  given.options.filterMap fun option => if option.1 == key then some option.2 else none

-- Of several values the last counts.
def last? (given : Given) (key : Key) : Option String := (given.all key).getLast?

end Given

structure Word where
  options : List (Key × String)
  waiting : Option Key

def readLetters (keys : List Key) : List Char → Option Word
  | [] => some ⟨[], none⟩
  | letter :: rest => do
      let key ← keys.find? (·.short? == some letter)
      if key.takesValue then
        if rest.isEmpty then return ⟨[], some key⟩
        else return ⟨[(key, String.ofList rest)], none⟩
      else
        let word ← readLetters keys rest
        return { word with options := (key, "") :: word.options }

def readWord (keys : List Key) (word : String) : Option Word :=
  let name := word.toList.takeWhile (· != '=')
  let value := (word.toList.drop name.length).tail?.map String.ofList
  match keys.find? (·.long == String.ofList name) with
  | some key =>
      match key.takesValue, value with
      | true, some value => some ⟨[(key, value)], none⟩
      | true, none => some ⟨[], some key⟩
      | false, some _ => none
      | false, none => some ⟨[(key, "")], none⟩
  | none => if word.startsWith "--" then none else readLetters keys (word.toList.drop 1)

def isOption (argument : String) : Bool := argument.startsWith "-" && argument.length > 1

/-- Reads arguments from the left. Two dashes end the options; so does, where options come first,
the first argument that is none. None for an option that is unknown or lacks its value. -/
def readArguments (keys : List Key) (optionsFirst : Bool) : Option Key → List String → Option Given
  | some _, [] => none
  | none, [] => some .empty
  | some key, value :: rest =>
      (readArguments keys optionsFirst none rest).map (.addOptions [(key, value)])
  | none, argument :: rest =>
      if argument == "--" then some ⟨[], rest⟩
      else if isOption argument then
        match readWord keys argument with
        | some word =>
            (readArguments keys optionsFirst word.waiting rest).map (.addOptions word.options)
        | none => none
      else if optionsFirst then some ⟨[], argument :: rest⟩
      else (readArguments keys optionsFirst none rest).map (.addOther argument)

structure Options where
  schemas : List String
  config : Option String
  verbose : Bool
deriving DecidableEq, Repr

structure ValidateOptions where
  common : Options
  filter : Option String
  suppressesWarnings : Bool
  format : String
  documents : List String
deriving DecidableEq, Repr

structure ReportOptions where
  common : Options
  format : String
  document : String
deriving DecidableEq, Repr

inductive Request
  | validate (options : ValidateOptions)
  | report (options : ReportOptions)
  | compile (options : Options)
  | version
  | help
  | misuse
deriving DecidableEq, Repr

namespace Request

def commonKeys : List Key := [.schema, .config, .verbose, .help]

def common (given : Given) : Options :=
  ⟨given.all .schema, given.last? .config, given.has .verbose⟩

def format (given : Given) : String := (given.last? .format).getD "table"

def ofValidate (given : Given) : Request :=
  if given.others.isEmpty then misuse
  else validate ⟨common given, given.last? .namespaceFilter, given.has .suppressWarnings,
    format given, given.others⟩

def ofReport (given : Given) : Request :=
  match given.others with
  | [document] => report ⟨common given, format given, document⟩
  | _ => misuse

def ofCompile (given : Given) : Request :=
  if given.others.isEmpty then compile (common given) else misuse

def ofCommand (keys : List Key) (arguments : List String) (read : Given → Request) : Request :=
  match readArguments keys false none arguments with
  | none => misuse
  | some given => if given.has .help then help else read given

def ofArguments (arguments : List String) : Request :=
  match readArguments [.version, .help] true none arguments with
  | none => misuse
  | some given =>
      if given.has .help then help
      else if given.has .version then version
      else
        match given.others with
        | "validate" :: rest =>
            ofCommand ([.namespaceFilter, .suppressWarnings, .format] ++ commonKeys) rest ofValidate
        | "report" :: rest => ofCommand (.format :: commonKeys) rest ofReport
        | "compile" :: rest => ofCommand commonKeys rest ofCompile
        | _ => misuse

end Request

end Schematron.Command
