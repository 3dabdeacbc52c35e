import Resettle.Generation
import Resettle.Path

/-!
# Command lines

What a command line asks for.  Options may stand anywhere behind their command, a value stands
behind its option or is joined to it, and `--` ends the options.  Any mistake makes the line
unusable, with no distinction among mistakes.
-/

namespace Resettle.Cli

inductive Format where
  | json
  | terminal
deriving DecidableEq, Repr

structure MigrateOptions where
  source : Path
  output : Path
  name : Option String
  version : Option String
  sail : Bool
  skipScaffold : Bool
  lenient : Bool
  sequential : Bool
  format : Format
deriving DecidableEq, Repr

structure AnalyzeOptions where
  path : Path
  format : Format
  output : Option Path
  generation : Option Generation
  sequential : Bool
deriving DecidableEq, Repr

inductive Command where
  | migrate (options : MigrateOptions)
  | detect (path : Path)
  | analyze (options : AnalyzeOptions)
  | init (force : Bool)
deriving DecidableEq, Repr

inductive Request where
  | run (command : Command)
  | version
  | help
  | mistake
deriving DecidableEq, Repr

/-! ## Options -/

inductive Kind where
  /-- It can be given once. -/
  | switch
  /-- It can be given again and again. -/
  | repeated
  /-- It takes a value of some form and can be given once. -/
  | value (accepts : String → Bool)
  | help

structure Opt where
  long : String
  short : Option Char
  kind : Kind

structure Found where
  switches : List String := []
  values : List (String × String) := []
  operands : List String := []

namespace Found

def has (f : Found) (name : String) : Bool :=
  f.switches.contains name

def value? (f : Found) (name : String) : Option String :=
  (f.values.find? fun v => v.1 == name).map Prod.snd

end Found

/-- Why the reading of a command line ends before its end. -/
inductive Stop where
  | help
  | mistake

def note (f : Found) (o : Opt) : Except Stop Found :=
  match o.kind with
  | .help => .error .help
  | .repeated => .ok f
  | .switch =>
      if f.has o.long then .error .mistake
      else .ok { f with switches := o.long :: f.switches }
  | .value _ => .error .mistake

def noteValue (f : Found) (o : Opt) (v : String) : Except Stop Found :=
  match o.kind with
  | .value accepts =>
      if (f.value? o.long).isSome || !accepts v then .error .mistake
      else .ok { f with values := (o.long, v) :: f.values }
  | _ => .error .mistake

def Opt.takesValue (o : Opt) : Bool :=
  match o.kind with
  | .value _ => true
  | _ => false

/-- What a group of short options leaves to be done: an option may wait for the next argument. -/
structure Group where
  found : Found
  waiting : Option Opt

/-- A text without an equals sign in front. -/
def dropEquals : List Char → List Char
  | '=' :: rest => rest
  | cs => cs

/-- Notes the short options of an argument.  What follows an option that takes a value is the
value. -/
def noteShort (opts : List Opt) (f : Found) : List Char → Except Stop Group
  | [] => .ok ⟨f, none⟩
  | c :: rest =>
      match opts.find? fun o => o.short == some c with
      | none => .error .mistake
      | some o =>
          if o.takesValue then
            if rest = [] then .ok ⟨f, some o⟩
            else do return ⟨← noteValue f o (String.ofList (dropEquals rest)), none⟩
          else do noteShort opts (← note f o) rest

def noteLong (opts : List Opt) (f : Found) (cs : List Char) : Except Stop Group :=
  let name := String.ofList (cs.takeWhile (· ≠ '='))
  match opts.find? fun o => o.long == name with
  | none => .error .mistake
  | some o =>
      match cs.dropWhile (· ≠ '='), o.takesValue with
      | [], true => .ok ⟨f, some o⟩
      | [], false => do return ⟨← note f o, none⟩
      | _ :: v, true => do return ⟨← noteValue f o (String.ofList v), none⟩
      | _ :: _, false => .error .mistake

def isOption (arg : String) : Bool :=
  match arg.toList with
  | '-' :: _ :: _ => true
  | _ => false

def noteOperand (limit : Nat) (f : Found) (arg : String) : Except Stop Found :=
  if f.operands.length < limit ∧ arg ≠ "" then .ok { f with operands := f.operands ++ [arg] }
  else .error .mistake

def readArguments (opts : List Opt) (limit : Nat) : Found → List String → Except Stop Found
  | f, [] => .ok f
  | f, arg :: rest =>
      match arg.toList with
      | ['-', '-'] => rest.foldlM (noteOperand limit) f
      | '-' :: '-' :: name => do
          match ← noteLong opts f name, rest with
          | ⟨f, none⟩, rest => readArguments opts limit f rest
          | ⟨_, some _⟩, [] => .error .mistake
          | ⟨f, some o⟩, v :: rest =>
              if isOption v then .error .mistake
              else do readArguments opts limit (← noteValue f o v) rest
      | '-' :: c :: cs => do
          match ← noteShort opts f (c :: cs), rest with
          | ⟨f, none⟩, rest => readArguments opts limit f rest
          | ⟨_, some _⟩, [] => .error .mistake
          | ⟨f, some o⟩, v :: rest =>
              if isOption v then .error .mistake
              else do readArguments opts limit (← noteValue f o v) rest
      | _ => do readArguments opts limit (← noteOperand limit f arg) rest

/-! ## Commands -/

def commonOptions : List Opt :=
  [⟨"verbose", some 'v', .repeated⟩, ⟨"help", some 'h', .help⟩]

def formatOf? : String → Option Format
  | "json" => some .json
  | "terminal" => some .terminal
  | _ => none

def formatOption : Opt :=
  ⟨"format", some 'f', .value fun v => (formatOf? v).isSome⟩

def pathValue : Kind :=
  .value fun v => v ≠ ""

def anyValue : Kind :=
  .value fun _ => true

def migrateOptions : List Opt :=
  commonOptions ++ [⟨"output", some 'o', pathValue⟩, ⟨"name", some 'n', anyValue⟩,
    ⟨"laravel-version", none, anyValue⟩, ⟨"sail", none, .switch⟩,
    ⟨"skip-scaffold", none, .switch⟩, ⟨"lenient", none, .switch⟩,
    ⟨"no-parallel", none, .switch⟩, formatOption]

def analyzeOptions : List Opt :=
  commonOptions ++ [formatOption, ⟨"output", some 'o', pathValue⟩,
    ⟨"generation", some 'g', .value fun v => (Generation.ofName? v).isSome⟩,
    ⟨"no-parallel", none, .switch⟩]

def initOptions : List Opt :=
  commonOptions ++ [⟨"force", some 'f', .switch⟩]

def format (f : Found) : Format :=
  ((f.value? "format").bind formatOf?).getD .terminal

def migrateOf? (f : Found) : Option Command :=
  match f.operands, f.value? "output" with
  | [source], some output =>
      some (.migrate
        { source := ⟨source⟩
          output := ⟨output⟩
          name := f.value? "name"
          version := f.value? "laravel-version"
          sail := f.has "sail"
          skipScaffold := f.has "skip-scaffold"
          lenient := f.has "lenient"
          sequential := f.has "no-parallel"
          format := format f })
  | _, _ => none

def analyzeOf? (f : Found) : Option Command :=
  match f.operands with
  | [path] =>
      some (.analyze
        { path := ⟨path⟩
          format := format f
          output := (f.value? "output").map Path.mk
          generation := (f.value? "generation").bind Generation.ofName?
          sequential := f.has "no-parallel" })
  | _ => none

def detectOf? (f : Found) : Option Command :=
  match f.operands with
  | [path] => some (.detect ⟨path⟩)
  | _ => none

def requestOf (opts : List Opt) (limit : Nat) (command? : Found → Option Command)
    (args : List String) : Request :=
  match readArguments opts limit {} args with
  | .error .help => .help
  | .error .mistake => .mistake
  | .ok f =>
      match command? f with
      | some c => .run c
      | none => .mistake

def commandNames : List String :=
  ["migrate", "detect", "analyze", "init", "help"]

def helpOf : List String → Request
  | [] => .help
  | [name] => if commandNames.contains name then .help else .mistake
  | _ => .mistake

/-- The request that the short options of an argument make in front of the command, if they do
more than tell how much to log. -/
def earlyShort? : List Char → Option Request
  | [] => none
  | 'v' :: rest => earlyShort? rest
  | 'V' :: _ => some .version
  | 'h' :: _ => some .help
  | _ => some .mistake

/-- The request of a command line, its program's name left out. -/
def Request.ofArguments : List String → Request
  | [] => .mistake
  | "--verbose" :: rest => Request.ofArguments rest
  | "--version" :: _ => .version
  | "--help" :: _ => .help
  | "migrate" :: rest => requestOf migrateOptions 1 migrateOf? rest
  | "detect" :: rest => requestOf commonOptions 1 detectOf? rest
  | "analyze" :: rest => requestOf analyzeOptions 1 analyzeOf? rest
  | "init" :: rest => requestOf initOptions 0 (fun f => some (.init (f.has "force"))) rest
  | "help" :: rest => helpOf rest
  | arg :: rest =>
      match arg.toList with
      | '-' :: '-' :: _ => .mistake
      | '-' :: c :: cs =>
          match earlyShort? (c :: cs) with
          | some r => r
          | none => Request.ofArguments rest
      | _ => .mistake

end Resettle.Cli
