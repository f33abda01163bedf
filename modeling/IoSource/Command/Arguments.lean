import IoSource.Command.Setting
import IoSource.Platform
import IoSource.Files.Path

/-!
# Reading a command line

An argument is an option, a delimiter or an operand. Names of options may be cut short as long as
one option fits, short switches may share a dash, and a value may follow its option or be part of
the same argument. The options of a line become steps first and take effect one after the other, so
that a request for help comes before whatever is wrong behind it.

There are two releases of the rules, which part where switches share a dash: what an equals sign
means there, and whether an unknown letter is a misuse at once or left over.
-/

namespace IoSource

/-- What stands in an argument besides an option: a value behind an equals sign, or what follows
at once. -/
structure Attachment where
  isAssigned : Bool
  text : Text
  deriving DecidableEq, Repr

/-- What an argument is. -/
inductive Argument
  | operand
  /-- Two dashes, behind which there are operands only. -/
  | delimiter
  | option (isShort : Bool) (s : Setting) (attached? : Option Attachment)
  | unknown
  deriving DecidableEq, Repr

namespace Argument

def delimiterText : Text := ['-', '-']

def isLong (name : Text) : Bool := delimiterText.isPrefixOf name

def namesOf (settings : List Setting) : List (Text × Setting) :=
  settings.flatMap fun s => s.names.map fun name => (name.toList, s)

def lookup? (names : List (Text × Setting)) (name : Text) : Option Setting :=
  (names.find? (·.1 = name)).map Prod.snd

/-- The text before and behind the first equals sign, if there is one. -/
def splitValue (t : Text) : Text × Option Attachment :=
  match t.dropWhile (· ≠ '=') with
  | [] => (t, none)
  | _ :: value => (t.takeWhile (· ≠ '='), some ⟨true, value⟩)

/-- The options that an argument may mean: by a long name cut short, or by a short name with the
value behind it. -/
def candidates (names : List (Text × Setting)) (t : Text) :
    List (Text × Setting × Option Attachment) :=
  if isLong t then
    let (start, attached?) := splitValue t
    (names.filter fun n => start.isPrefixOf n.1).map fun n => (n.1, n.2, attached?)
  else
    (names.filter fun n => n.1 = t.take 2).map fun n => (n.1, n.2, some ⟨false, t.drop 2⟩)

/-- Whether an argument is a dash and a number, which is an operand. -/
def isNegativeNumber (t : Text) : Bool :=
  let isDigit (c : Char) : Bool := (Number.decimalDigit? c).isSome
  let digits := (if t.getLast? = some '\n' then t.dropLast else t).drop 1
  match digits.dropWhile isDigit with
  | [] => digits ≠ []
  | '.' :: fraction => fraction ≠ [] && fraction.all isDigit
  | _ => false

/-- What an argument in front of any delimiter is. -/
def ofText (names : List (Text × Setting)) (t : Text) : Except UsageError Argument :=
  match t with
  | '-' :: _ :: _ =>
    let (start, attached?) := splitValue t
    match lookup? names t, attached?.bind fun _ => lookup? names start with
    | some s, _ => .ok (.option (!isLong t) s none)
    | none, some s => .ok (.option (!isLong t) s attached?)
    | none, none =>
      match candidates names t with
      | [] => .ok (if isNegativeNumber t || t.contains ' ' then .operand else .unknown)
      | [(name, s, attached?)] => .ok (.option (!isLong name) s attached?)
      | several => .error (.ambiguous t (several.map Prod.fst))
  | _ => .ok .operand

def ofTexts (names : List (Text × Setting)) : List Text →
    Except UsageError (List (Text × Argument))
  | [] => .ok []
  | t :: ts =>
    if t = delimiterText then .ok ((t, delimiter) :: ts.map (·, operand))
    else do
      let argument ← ofText names t
      return (t, argument) :: (← ofTexts names ts)

end Argument

/-- What one part of a command line does. -/
inductive Step
  /-- Set a switch, or an option that has a value. -/
  | set (s : Setting) (value? : Option Text)
  | source (t : Text)
  | leftover (t : Text)
  | stop (e : UsageError)
  deriving DecidableEq, Repr

namespace Step

variable [Platform]

/-- The value that a text attached to an option is; a delimiter may be none. -/
def attachedValue? (t : Text) : Option Text :=
  if Platform.release = .earlier ∧ t = Argument.delimiterText then none else some t

/-- Whether a text may go on with the switches of an argument that holds one already. -/
def continues (isShort isAssigned : Bool) (c : Char) : Bool :=
  isShort && (Platform.release = .earlier || !isAssigned && c ≠ '-')

/-- The steps of an option with something attached to it: its value, or, behind a short switch,
further short options. The last of them may still want a value. -/
def ofAttached (names : List (Text × Setting)) (isShort : Bool) (s : Setting) (isAssigned : Bool) :
    (given : Text) → Except UsageError (List Step × Option Setting)
  | [] => if s.hasValue then .ok ([set s (some [])], none) else .error (.valueIgnored s [])
  | c :: rest =>
    if s.hasValue then .ok ([set s (attachedValue? (c :: rest))], none)
    else if !continues isShort isAssigned c then .error (.valueIgnored s (c :: rest))
    else
      match Argument.lookup? names ['-', c], rest with
      | none, rest =>
        if Platform.release = .earlier then .error (.valueIgnored s (c :: rest))
        else .ok ([set s none, leftover ('-' :: c :: rest)], none)
      | some next, [] =>
        .ok (if next.hasValue then ([set s none], some next)
          else ([set s none, set next none], none))
      | some next, d :: rest => do
        let isAssigned := d = '=' && Platform.release = .later
        let (steps, open?) ←
          if isAssigned then ofAttached names true next true rest
          else ofAttached names true next false (d :: rest)
        return (set s none :: steps, open?)

/-- The steps of an option, and whether its value is to come from the next argument. -/
def ofOption (names : List (Text × Setting)) (isShort : Bool) (s : Setting) :
    (attached? : Option Attachment) → Except UsageError (List Step × Option Setting)
  | some given => ofAttached names isShort s given.isAssigned given.text
  | none => .ok (if s.hasValue then ([], some s) else ([set s none], none))

/-- The steps of a command line. The first operand is the source, if one is wanted; a delimiter next
to it is dropped. -/
def ofArguments (names : List (Text × Setting)) : (wanted : Bool) → List (Text × Argument) →
    List Step
  | _, [] => []
  | true, (t, .operand) :: (_, .delimiter) :: rest => source t :: ofArguments names false rest
  | true, (t, .operand) :: rest => source t :: ofArguments names false rest
  | true, (_, .delimiter) :: (t, _) :: rest => source t :: ofArguments names false rest
  | wanted, (_, .option isShort s attached?) :: rest =>
    match ofOption names isShort s attached?, rest with
    | .error e, _ => [stop e]
    | .ok (steps, none), rest => steps ++ ofArguments names wanted rest
    | .ok (steps, some last), (t, .operand) :: rest =>
      steps ++ set last (some t) :: ofArguments names wanted rest
    | .ok (_, some last), _ => [stop (.valueMissing last)]
  | wanted, (t, _) :: rest => leftover t :: ofArguments names wanted rest

end Step

/-- What the options and operands of a line have set. A tab width or a category may have been given
without a value. -/
structure Choices where
  source? : Option Path := none
  json : Bool := false
  tabWidth? : Option (Option Int) := none
  changedOnly : Bool := false
  categories : List (Option Text) := []
  force : Bool := false
  check : Bool := false
  config? : Option Path := none
  verbose : Bool := false
  quiet : Bool := false
  leftovers : List Text := []
  deriving DecidableEq, Repr

/-- What ends the reading of a command line early. -/
inductive Interruption
  | help
  | misuse (e : UsageError)
  deriving DecidableEq, Repr

namespace Choices

def apply (c : Choices) : Step → Except Interruption Choices
  | .set .help _ => .error .help
  | .set .tabWidth none => .ok { c with tabWidth? := some none }
  | .set .tabWidth (some t) =>
    match Number.integer? 10 t with
    | some width => .ok { c with tabWidth? := some (some width) }
    | none => .error (.misuse (.notAnInteger .tabWidth t))
  | .set .category value? => .ok { c with categories := c.categories ++ [value?] }
  | .set .config value? => .ok { c with config? := value?.map Path.ofText }
  | .set .json _ => .ok { c with json := true }
  | .set .changedOnly _ => .ok { c with changedOnly := true }
  | .set .force _ => .ok { c with force := true }
  | .set .check _ => .ok { c with check := true }
  | .set .verbose _ => .ok { c with verbose := true }
  | .set .quiet _ => .ok { c with quiet := true }
  | .set .version _ => .ok c
  | .source t => .ok { c with source? := some (Path.ofText t) }
  | .leftover t => .ok { c with leftovers := c.leftovers ++ [t] }
  | .stop e => .error (.misuse e)

def ofTexts [Platform] (command : Subcommand) (ts : List Text) : Except Interruption Choices := do
  let names := Argument.namesOf command.settings
  let arguments ← (Argument.ofTexts names ts).mapError .misuse
  let choices ← (Step.ofArguments names command.hasSource arguments).foldlM apply {}
  if command.hasSource ∧ choices.source?.isNone then throw (.misuse .sourceMissing)
  return choices

end Choices

/-- What is to be done, with what it needs. -/
inductive Command
  | normalize (source : Path) (json : Bool)
  | indent (source : Path) (tabWidth? : Option (Option Int)) (changedOnly : Bool)
  | highlight (source : Path) (categories : List (Option Text))
  | cleanup (source : Path) (force check : Bool)
  | showConfig
  deriving DecidableEq, Repr

/-- How much is said. -/
inductive Volume
  | asConfigured
  | verbose
  | quiet
  deriving DecidableEq, Repr

/-- What a command line asks for. -/
inductive Request
  /-- Help on a command, or on all of them. -/
  | help (topic? : Option Subcommand)
  | version
  | misuse (topic? : Option Subcommand) (e : UsageError)
  | run (command : Command) (config? : Option Path) (volume : Volume)
  deriving DecidableEq, Repr

namespace Request

/-- The command that a name and choices describe. -/
def command (name : Subcommand) (c : Choices) : Command :=
  let source := c.source?.getD (Path.ofText [])
  match name with
  | .normalize => .normalize source c.json
  | .indent => .indent source c.tabWidth? c.changedOnly
  | .highlight => .highlight source c.categories
  | .cleanup => .cleanup source c.force c.check
  | .showConfig => .showConfig

def ofCommand [Platform] (name : Subcommand) (ts : List Text) : Request :=
  match Choices.ofTexts name ts with
  | .error .help => help (some name)
  | .error (.misuse e) => misuse (some name) e
  | .ok c =>
    if c.leftovers ≠ [] then misuse none (.unrecognized c.leftovers)
    else if c.verbose ∧ c.quiet then misuse none .verboseAndQuiet
    else
      run (command name c) c.config?
        (if c.verbose then .verbose else if c.quiet then .quiet else .asConfigured)

/-- The request of a whole command line. A line that starts with neither a command nor a general
option normalizes, and an empty line asks for help. -/
def ofArguments [Platform] (ts : List Text) : Request :=
  match ts with
  | [] => help none
  | t :: rest =>
    let names := Argument.namesOf generalSettings
    match Argument.ofTexts names (t :: rest), Argument.lookup? names t with
    | .error e, _ => misuse none e
    | .ok _, some .version => version
    | .ok _, some _ => help none
    | .ok _, none =>
      match Subcommand.ofName? t with
      | some name => ofCommand name rest
      | none => ofCommand .normalize (t :: rest)

end Request

end IoSource
