import Resettle.Shell.Script
import Resettle.Shell.Tools

/-!
# Running shell scripts

A script is run command by command on a disk, until it ends by itself or is told to.  What its
commands write to the two output channels is kept apart.
-/

namespace Resettle.Shell

inductive Exit where
  | status (code : Nat)
  | signal (number : Nat)
deriving DecidableEq, Repr

namespace Exit

def isSuccess (e : Exit) : Bool :=
  e == status 0

def signalName : Nat → String
  | 1 => " (SIGHUP)"
  | 2 => " (SIGINT)"
  | 3 => " (SIGQUIT)"
  | 6 => " (SIGABRT)"
  | 9 => " (SIGKILL)"
  | 13 => " (SIGPIPE)"
  | 14 => " (SIGALRM)"
  | 15 => " (SIGTERM)"
  | _ => ""

/-- How a program ended, in words. -/
def message : Exit → String
  | status code => s!"exit status: {code}"
  | signal number => s!"signal: {number}" ++ signalName number

end Exit

structure State where
  disk : Disk
  /-- The name of the script and its arguments. -/
  arguments : List String
  assigned : List (String × String) := []
  /-- How the last command ended. -/
  status : Nat := 0
  /-- Whether a failing command ends the script. -/
  strict : Bool := false
  output : String := ""
  errors : String := ""
  /-- How the script ended, once it has. -/
  ended : Option Exit := none

namespace State

def process : Nat :=
  4242

variable (s : State)

def parameter (name : String) : String :=
  match name with
  | "$" => toString process
  | "?" => toString s.status
  | "#" => toString (s.arguments.length - 1)
  | "@" => " ".intercalate (s.arguments.drop 1)
  | "*" => " ".intercalate (s.arguments.drop 1)
  | _ =>
      match name.toNat? with
      | some n => s.arguments.getD n ""
      | none => ((s.assigned.find? fun v => v.1 == name).map Prod.snd).getD ""

/-- Fields that a word has given so far, the last one apart; it is missing until something is put
into it. -/
structure Fields where
  done : List String
  last : Option String

def Fields.extend (f : Fields) (t : String) : Fields :=
  { f with last := some (f.last.getD "" ++ t) }

def Fields.close (f : Fields) : Fields :=
  ⟨f.done ++ f.last.toList, none⟩

def Fields.split (f : Fields) (cs : List Char) : Fields :=
  cs.foldl (fun f c =>
    if c = ' ' ∨ c = '\t' ∨ c = '\n' then f.close else f.extend (String.singleton c)) f

def addPiece (f : Fields) : Piece → Fields
  | .text cs _ => f.extend (String.ofList cs)
  | .parameter name true =>
      if name = ['@'] then
        match s.arguments.drop 1 with
        | [] => f
        | first :: rest => rest.foldl (fun f a => f.close.extend a) (f.extend first)
      else f.extend (s.parameter (String.ofList name))
  | .parameter name false => f.split (s.parameter (String.ofList name)).toList

def fields (w : Word) : List String :=
  let w :=
    match w with
    | [.text [] true, .parameter ['@'] true] => w.drop 1
    | _ => w
  (w.foldl s.addPiece ⟨[], none⟩).close.done

def flat (w : Word) : String :=
  String.join (w.map fun
    | Piece.text cs _ => String.ofList cs
    | Piece.parameter name _ => s.parameter (String.ofList name))

def assignment? (w : Word) : Option (String × String) :=
  let name := w.takeWhile fun
    | Piece.text [c] false => isNameRest c
    | _ => false
  match w.drop name.length with
  | .text ['='] false :: value =>
      let text := s.flat name
      if (text.toList.head?.map isNameStart).getD false then some (text, s.flat value) else none
  | _ => none

/-! ## Commands -/

def signalOf (option : String) : Nat :=
  match option with
  | "-KILL" => 9
  | "-TERM" => 15
  | "-INT" => 2
  | "-HUP" => 1
  | _ => ((String.ofList (option.toList.drop 1)).toNat?).getD 15

def finish (e : Exit) : State :=
  { s with ended := some e }

/-- The state after a command of the shell itself that writes nothing, if there is one of that
name. -/
def runControl? (command : String) (args : List String) : Option State :=
  match command, args with
  | "exit", [] => some (s.finish (.status s.status))
  | "exit", code :: _ => some (s.finish (.status ((code.toNat?).getD 2 % 256)))
  | "kill", [option, process] =>
      if process = toString State.process then some (s.finish (.signal (signalOf option)))
      else some { s with status := 1 }
  | "kill", [process] =>
      if process = toString State.process then some (s.finish (.signal 15))
      else some { s with status := 1 }
  | "set", options => some { s with status := 0, strict := s.strict || options.contains "-e" }
  | "cd", [dir] =>
      match s.disk.isDirectory ⟨dir⟩, s.disk.placeOf ⟨dir⟩ with
      | true, .ok place => some { s with disk := s.disk.seenFrom place, status := 0 }
      | _, _ => some { s with status := 2 }
  | _, _ => none

def effectOf (command : String) (args : List String) : Effect :=
  match command with
  | ":" => Effect.ended s.disk 0
  | "true" => Effect.ended s.disk 0
  | "false" => Effect.ended s.disk 1
  | "echo" => { disk := s.disk, output := echoText args }
  | "printf" =>
      { disk := s.disk,
        output := String.ofList (printfText (args.headD "") (args.length + 1) (args.drop 1)) }
  | "pwd" => { disk := s.disk, output := "/" ++ "/".intercalate s.disk.here ++ "\n" }
  | "test" => Effect.ended s.disk (if holds s.disk args then 0 else 1)
  | "[" => Effect.ended s.disk (if holds s.disk args.dropLast then 0 else 1)
  | _ =>
      match runTool? s.disk command args with
      | some e => e
      | none => { disk := s.disk, errors := command ++ ": not found\n", status := 127 }

/-- Where a descriptor leads. -/
inductive Sink where
  | output
  | errors
  | nowhere
  | file (target : Path)

structure Sinks where
  output : Sink
  errors : Sink

def Sinks.get (x : Sinks) (descriptor : Nat) : Sink :=
  if descriptor = 2 then x.errors else x.output

def Sinks.set (x : Sinks) (descriptor : Nat) (sink : Sink) : Sinks :=
  if descriptor = 2 then { x with errors := sink } else { x with output := sink }

/-- Opens what redirections name, in order; a file that does not get longer is emptied. -/
def openAll : List Redirection → Sinks → Disk → Option (Sinks × Disk)
  | [], x, d => some (x, d)
  | .copy descriptor other :: rest, x, d => openAll rest (x.set descriptor (x.get other)) d
  | .file descriptor atEnd target :: rest, x, d =>
      let name := s.flat target
      if name = "/dev/null" then openAll rest (x.set descriptor .nowhere) d
      else
        let p : Path := ⟨name⟩
        if atEnd && d.isFile p then openAll rest (x.set descriptor (.file p)) d
        else
          match d.write p (.text "") with
          | .ok d => openAll rest (x.set descriptor (.file p)) d
          | .error _ => none

def deliver (sink : Sink) (t : String) : State :=
  match sink with
  | .output => { s with output := s.output ++ t }
  | .errors => { s with errors := s.errors ++ t }
  | .nowhere => s
  | .file p =>
      match s.disk.content p with
      | .ok c =>
          match s.disk.write p (c.append (.text t)) with
          | .ok d => { s with disk := d }
          | .error _ => s
      | .error _ => s

def runCommand (c : Command) : State :=
  let given := c.words.takeWhile fun w => (s.assignment? w).isSome
  let named := c.words.drop given.length
  match s.openAll c.redirections ⟨.output, .errors⟩ s.disk with
  | none => { s with status := 2 }
  | some (sinks, d) =>
      let s := { s with disk := d }
      match named.flatMap s.fields with
      | [] =>
          { s with
            assigned := (given.filterMap s.assignment?).reverse ++ s.assigned
            status := if c.words.isEmpty then s.status else 0 }
      | command :: args =>
          match s.runControl? command args with
          | some s => s
          | none =>
              let e := s.effectOf command args
              let s := { s with disk := e.disk, status := e.status }
              (s.deliver sinks.output e.output).deliver sinks.errors e.errors

def step (c : Link × Command) : State :=
  match s.ended, c.1, s.status with
  | some _, _, _ => s
  | none, .ifSucceeded, _ + 1 => s
  | none, .ifFailed, 0 => s
  | none, _, _ =>
      let after := s.runCommand c.2
      if after.strict && after.status ≠ 0 && after.ended.isNone then
        after.finish (.status after.status)
      else after

end State

structure Result where
  exit : Exit
  output : String
  errors : String

def run (script : Script) (arguments : List String) (d : Disk) : Result × Disk :=
  let s := script.foldl State.step { disk := d, arguments }
  (⟨s.ended.getD (.status s.status), s.output, s.errors⟩, s.disk)

end Resettle.Shell
