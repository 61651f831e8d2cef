import CallAtlas.Ordered
import CallAtlas.Text.Basic

/-!
# Command-line options

Options are told from plain arguments by their leading hyphen.  A long option may have its value
behind an equals sign, a short one directly behind its letter; short flags may share one hyphen.
Two hyphens alone end the options.
-/

namespace CallAtlas.Command

/-- Why a command line is refused. -/
inductive UsageError where
  /-- An option is unknown. -/
  | noSuchOption
  /-- An option lacks its value, or a flag has one. -/
  | badOptionUsage
  /-- An argument is missing. -/
  | missingParameter
  /-- The value of an option is none of those allowed. -/
  | badValue
  /-- What was asked for makes no sense, said in words. -/
  | badParameter (message : String)
  /-- There is an argument too many, or no such command. -/
  | misuse
deriving DecidableEq, Repr

/-- An option that may be given. -/
structure OptionSpec where
  /-- The names it goes by, with their hyphens. -/
  names : List String
  /-- What it sets. -/
  setting : String
  /-- The value that a flag sets; an option without one takes a value. -/
  flag : Option String := none

/-- What a command line says. -/
structure Parsed where
  /-- The options in the order given, with their values. -/
  options : List (String × String) := []
  /-- The plain arguments. -/
  arguments : List String := []

namespace Parsed

/-- The value set last. -/
def last? (p : Parsed) (setting : String) : Option String :=
  (p.options.reverse.find? fun o => o.1 == setting).map Prod.snd

/-- Whether a flag was given. -/
def has (p : Parsed) (setting : String) : Bool :=
  p.options.any fun o => o.1 == setting

/-- Puts options in front. -/
def withOptions (options : List (String × String)) (p : Parsed) : Parsed :=
  { p with options := options ++ p.options }

/-- Puts a plain argument in front. -/
def withArgument (argument : String) (p : Parsed) : Parsed :=
  { p with arguments := argument :: p.arguments }

end Parsed

/-- The option of a given name. -/
def specNamed? (specs : List OptionSpec) (name : String) : Option OptionSpec :=
  specs.find? fun s => s.names.contains name

/-- The options that a group of letters behind one hyphen gives.  The second part is the option
that still waits for its value. -/
def shortOptions (specs : List OptionSpec) :
    List Char → Except UsageError (List (String × String) × Option String)
  | [] => .ok ([], none)
  | c :: rest =>
    match specNamed? specs (String.ofList ['-', c]) with
    | none => .error .noSuchOption
    | some spec =>
      match spec.flag with
      | some value => do
        let (others, waiting) ← shortOptions specs rest
        return ((spec.setting, value) :: others, waiting)
      | none =>
        if rest = [] then .ok ([], some spec.setting)
        else .ok ([(spec.setting, String.ofList rest)], none)

/-- The options that one argument gives, with the option that still waits for its value. -/
def optionsOf (specs : List OptionSpec) (argument : String) :
    Except UsageError (List (String × String) × Option String) :=
  let s := argument.toList
  let name := s.takeWhile (· != '=')
  let value :=
    if s.contains '=' then some (String.ofList (Text.afterFirst '=' s)) else none
  let isLong := "--".toList.isPrefixOf s
  match if isLong then specNamed? specs (String.ofList name) else none with
  | some spec =>
    match spec.flag, value with
    | some _, some _ => .error .badOptionUsage
    | some flag, none => .ok ([(spec.setting, flag)], none)
    | none, some value => .ok ([(spec.setting, value)], none)
    | none, none => .ok ([], some spec.setting)
  | none => if isLong then .error .noSuchOption else shortOptions specs (s.drop 1)

/-- Whether an argument gives options. -/
def isOption (argument : String) : Bool :=
  argument.toList.head? == some '-' && argument.length > 1

/-- What a command line says.  Where `mixed` does not hold, options end at the first plain
argument. -/
def parse (specs : List OptionSpec) (mixed : Bool) : List String → Except UsageError Parsed
  | [] => .ok {}
  | argument :: rest =>
    if argument = "--" then .ok { arguments := rest }
    else if isOption argument then
      match optionsOf specs argument with
      | .error e => .error e
      | .ok (options, none) => (parse specs mixed rest).map (Parsed.withOptions options)
      | .ok (options, some waiting) =>
        match rest with
        | [] => .error .badOptionUsage
        | value :: rest =>
          (parse specs mixed rest).map (Parsed.withOptions (options ++ [(waiting, value)]))
    else if mixed then (parse specs mixed rest).map (Parsed.withArgument argument)
    else .ok { arguments := argument :: rest }

end CallAtlas.Command
