import CoreBench.Settings.Value
import CoreBench.Text.Cut
import CoreBench.Text.Digits

/-!
Command lines: options with a value, and switches. An option is written `--name value`, `--name=value`,
`-n value`, `-n=value` or `-nvalue`; letters of switches can be put together behind one `-`. Behind `--` there
are no options. There are no other arguments.

Arguments are read from left to right, and the first thing that is wrong is reported. The value of an option
that stands in an argument of its own is held, and is judged only when the next option or switch has been
recognised, or at the end.

Stated here:
  * `Kind.read_natural`: a number that is read is within the bound of its option.
-/

namespace CoreBench.Settings

open CoreBench.Text

/-- What is wrong with a command line, or what it asks for instead of a run. -/
inductive UsageError where
  | unknownArgument
  | invalidValue
  | invalidNumber
  | unwantedValue
  | repeatedOption
  | helpRequested
  | versionRequested
  deriving DecidableEq, Repr

/-- What the value of an option has to be. -/
inductive Kind where
  | path
  | text
  | natural (max : Nat)
  | choice (names : List String)
  deriving DecidableEq, Repr

/-- A value read from its text: a path must not be empty, a number is in decimal digits. -/
def Kind.read (s : String) : Kind → Except UsageError Value
  | .path => if s = "" then .error .invalidValue else .ok (.text s)
  | .text => .ok (.text s)
  | .natural max =>
    match readNat max s.toList with
    | .error _ => .error .invalidNumber
    | .ok n => .ok (.int n)
  | .choice names => if s ∈ names then .ok (.text s) else .error .invalidValue

theorem Kind.read_natural {max : Nat} {s : String} {v : Value}
    (h : (Kind.natural max).read s = .ok v) :
    ∃ n : Nat, v = .int n ∧ readNat max s.toList = .ok n := by
  simp only [Kind.read] at h
  split at h
  · simp at h
  · next n hn => exact ⟨n, by simpa using h.symm, hn⟩

/-- What an option is for: a setting with a value, a switch, one more configuration file, or a word about
the program instead of a run. -/
inductive Purpose where
  | setting (key : String) (kind : Kind)
  | switch (key : String)
  | file
  | help
  | version
  deriving DecidableEq, Repr

/-- Whether an option takes a value. -/
def Purpose.takesValue : Purpose → Bool
  | .setting _ _ => true
  | .file => true
  | _ => false

/-- An option with its long name and its letter. -/
structure Opt where
  long : String
  short : Option Char
  purpose : Purpose
  deriving DecidableEq, Repr

/-- The option that asks for help. -/
def Opt.help : Opt := ⟨"help", some 'h', .help⟩

/-- The option that asks for the version. -/
def Opt.version : Opt := ⟨"version", some 'V', .version⟩

/-- The line of a help text that shows an option. -/
def Opt.line (o : Opt) : String :=
  "  " ++ (o.short.elim "    " fun c => String.ofList ['-', c, ',', ' ']) ++ "--" ++ o.long
    ++ if o.purpose.takesValue then " <VALUE>" else ""

/-- What a command line gives: settings and configuration files. -/
structure Arguments where
  settings : Entries := []
  files : List String := []
  deriving Repr

namespace Arguments

/-- The arguments with one more setting, which must not have been given before. -/
def add (a : Arguments) (key : String) (v : Value) : Arguments :=
  { a with settings := a.settings ++ [(key, v)] }

/-- Whether a setting has been given. -/
def has (a : Arguments) (key : String) : Bool :=
  (a.settings.lookup key).isSome

/-- The arguments with the value of an option. -/
def take (a : Arguments) (o : Opt) (s : String) : Except UsageError Arguments :=
  match o.purpose with
  | .setting key kind =>
    if a.has key then .error .repeatedOption
    else (kind.read s).map (a.add key)
  | .file => (Kind.path.read s).map fun _ => { a with files := a.files ++ [s] }
  | _ => .error .unwantedValue

/-- The arguments with a switch on. -/
def turnOn (a : Arguments) (o : Opt) : Except UsageError Arguments :=
  match o.purpose with
  | .switch key => if a.has key then .error .repeatedOption else .ok (a.add key (.bool true))
  | .help => .error .helpRequested
  | .version => .error .versionRequested
  | _ => .error .invalidValue

/-- What the arguments read so far have left open: nothing, an option without its value, or an option with
a value that has not been judged. -/
inductive Pending where
  | nothing
  | wanted (o : Opt)
  | held (o : Opt) (value : String)
  deriving DecidableEq, Repr

/-- The arguments with what was left open. -/
def settle (a : Arguments) : Pending → Except UsageError Arguments
  | .nothing => .ok a
  | .wanted _ => .error .invalidValue
  | .held o s => a.take o s

/-- How far a command line has been read. -/
structure Progress where
  given : Arguments := {}
  pending : Pending := .nothing
  deriving Repr

/-- The state behind an option and the value attached to it, if there is one. -/
def Progress.option (p : Progress) (o : Opt) (attached : Option String) :
    Except UsageError Progress :=
  match o.purpose.takesValue, attached with
  | true, some s => do
    let a ← p.given.settle p.pending
    let a ← a.take o s
    .ok ⟨a, .nothing⟩
  | true, none => do
    let a ← p.given.settle p.pending
    .ok ⟨a, .wanted o⟩
  | false, some _ => .error .unwantedValue
  | false, none => do
    let a ← p.given.settle p.pending
    let a ← a.turnOn o
    .ok ⟨a, .nothing⟩

/-- The value behind the letter of an option in the same argument, without an `=` at its start. -/
def attachedTo : List Char → Option String
  | [] => none
  | '=' :: s => some (String.ofList s)
  | s => some (String.ofList s)

/-- The state behind letters put together. -/
def Progress.letters (opts : List Opt) (p : Progress) : List Char → Except UsageError Progress
  | [] => .ok p
  | c :: s =>
    match opts.find? (·.short = some c) with
    | none => .error .unknownArgument
    | some o =>
      if o.purpose.takesValue then p.option o (attachedTo s)
      else do
        let p ← p.option o none
        letters opts p s

/-- The state behind an option by its long name. -/
def Progress.long (opts : List Opt) (p : Progress) (s : List Char) : Except UsageError Progress :=
  let (name, attached) := match cut? ['='] s with
    | none => (s, none)
    | some (name, v) => (name, some (String.ofList v))
  match opts.find? (·.long.toList = name) with
  | none => .error .unknownArgument
  | some o => p.option o attached

/-- The state behind an argument that is no option: it has to be a wanted value. -/
def Progress.plain (p : Progress) (s : String) : Except UsageError Progress :=
  match p.pending with
  | .wanted o => .ok { p with pending := .held o s }
  | _ => .error .unknownArgument

/-- The arguments given by a command line from the state `p` on. -/
def readFrom (opts : List Opt) (p : Progress) : List String → Except UsageError Arguments
  | [] => p.given.settle p.pending
  | s :: rest =>
    match s.toList with
    | ['-', '-'] => if rest = [] then p.given.settle p.pending else .error .unknownArgument
    | '-' :: '-' :: t => do
      let p ← p.long opts t
      readFrom opts p rest
    | '-' :: c :: t => do
      let p ← p.letters opts (c :: t)
      readFrom opts p rest
    | _ => do
      let p ← p.plain s
      readFrom opts p rest

/-- The arguments given by a command line. The options for help, and for the version if there is one, come
on top of those listed. -/
def read (opts : List Opt) (versioned : Bool) (args : List String) : Except UsageError Arguments :=
  readFrom (opts ++ .help :: if versioned then [.version] else []) {} args

end Arguments

end CoreBench.Settings
