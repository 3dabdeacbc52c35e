import Resettle.Disk

/-!
# Tools of the shell

The commands that a script can give: those of the shell itself, and a few tools that work on
files.  A command gets its arguments and answers what it writes and how it ends.
-/

namespace Resettle.Shell

/-- What a command leaves behind. -/
structure Effect where
  disk : Disk
  output : String := ""
  errors : String := ""
  status : Nat := 0

namespace Effect

def ended (d : Disk) (status : Nat) : Effect :=
  { disk := d, status }

/-- One effect after another; the first failure gives the status. -/
def andThen (a : Effect) (f : Disk → Effect) : Effect :=
  let b := f a.disk
  { disk := b.disk, output := a.output ++ b.output, errors := a.errors ++ b.errors,
    status := if a.status = 0 then b.status else a.status }

def forEach (d : Disk) (args : List String) (f : Disk → String → Effect) : Effect :=
  args.foldl (fun e arg => e.andThen fun d => f d arg) (ended d 0)

end Effect

/-- The wording of a failure without its number. -/
def reason (f : Failure) : String :=
  match f with
  | .notFound => "No such file or directory"
  | .alreadyExists => "File exists"
  | .notDirectory => "Not a directory"
  | .isDirectory => "Is a directory"
  | .notExecutable => "Exec format error"
  | .nameTooLong => "File name too long"
  | .notText => "Invalid or incomplete multibyte or wide character"

def complaint (d : Disk) (tool doing : String) (f : Failure) : Effect :=
  { disk := d, errors := s!"{tool}: {doing}: {reason f}\n", status := 1 }

def quoted (name : String) : String :=
  "'" ++ name ++ "'"

/-! ## Writing -/

def unescape : List Char → List Char
  | '\\' :: 'n' :: rest => '\n' :: unescape rest
  | '\\' :: 't' :: rest => '\t' :: unescape rest
  | '\\' :: 'r' :: rest => '\r' :: unescape rest
  | '\\' :: 'a' :: rest => '\x07' :: unescape rest
  | '\\' :: 'b' :: rest => '\x08' :: unescape rest
  | '\\' :: 'f' :: rest => '\x0c' :: unescape rest
  | '\\' :: 'v' :: rest => '\x0b' :: unescape rest
  | '\\' :: '\\' :: rest => '\\' :: unescape rest
  | c :: rest => c :: unescape rest
  | [] => []

def echoText (args : List String) : String :=
  let (ending, shown) :=
    match args with
    | "-n" :: rest => ("", rest)
    | _ => ("\n", args)
  String.ofList (unescape (" ".intercalate shown).toList) ++ ending

/-- A format with its places filled in turn, and the arguments that are left. -/
def fillFormat : List Char → List String → List Char × List String
  | '%' :: '%' :: rest, args =>
      let (more, left) := fillFormat rest args
      ('%' :: more, left)
  | '%' :: _ :: rest, args =>
      let (more, left) := fillFormat rest (args.drop 1)
      ((args.headD "").toList ++ more, left)
  | c :: rest, args =>
      let (more, left) := fillFormat rest args
      (c :: more, left)
  | [], args => ([], args)

def printfText (format : String) : Nat → List String → List Char
  | 0, _ => []
  | fuel + 1, args =>
      let (text, left) := fillFormat (unescape format.toList) args
      if left.isEmpty || left.length = args.length then text
      else text ++ printfText format fuel left

/-! ## Files -/

def mkdir (tool : String) (d : Disk) (args : List String) : Effect :=
  let parents := args.contains "-p"
  Effect.forEach d (args.filter (· ≠ "-p")) fun d name =>
    let (made, d) :=
      if parents then d.makePath ⟨name⟩
      else
        match d.makeDirectory ⟨name⟩ with
        | .ok made => (.ok (), made)
        | .error f => (.error f, d)
    match made with
    | .ok () => Effect.ended d 0
    | .error f => complaint d tool s!"cannot create directory {quoted name}" f

/-- The path that a file is copied to: inside of a directory it keeps its name. -/
def destination (d : Disk) (source target : String) : Path :=
  if d.isDirectory ⟨target⟩ then Path.join ⟨target⟩ ((Path.fileName? ⟨source⟩).getD "")
  else ⟨target⟩

def copyFile (tool : String) (d : Disk) (source target : String) : Effect :=
  match d.content ⟨source⟩ with
  | .error .isDirectory =>
      { disk := d, errors := s!"{tool}: -r not specified; omitting directory {quoted source}\n",
        status := 1 }
  | .error f => complaint d tool s!"cannot stat {quoted source}" f
  | .ok c =>
      let p := destination d source target
      match d.write p c with
      | .ok d => Effect.ended d 0
      | .error f => complaint d tool s!"cannot create regular file {quoted p.text}" f

def cp (tool : String) (d : Disk) (args : List String) : Effect :=
  match (args.filter fun a => a.toList.head? ≠ some '-').reverse with
  | target :: first :: rest =>
      Effect.forEach d (first :: rest).reverse fun d source => copyFile tool d source target
  | _ => { disk := d, errors := s!"{tool}: missing file operand\n", status := 1 }

def rm (tool : String) (d : Disk) (args : List String) : Effect :=
  let isFlag (a : String) : Bool := a.toList.head? = some '-'
  let flags := (args.filter isFlag).flatMap String.toList
  Effect.forEach d (args.filter fun a => !isFlag a) fun d name =>
    match d.look ⟨name⟩ with
    | .error f =>
        if flags.contains 'f' then Effect.ended d 0
        else complaint d tool s!"cannot remove {quoted name}" f
    | .ok .directory =>
        if flags.contains 'r' || flags.contains 'R' then Effect.ended (d.remove ⟨name⟩) 0
        else complaint d tool s!"cannot remove {quoted name}" .isDirectory
    | .ok (.file _ _) => Effect.ended (d.remove ⟨name⟩) 0

def touch (tool : String) (d : Disk) (args : List String) : Effect :=
  Effect.forEach d args fun d name =>
    if d.has ⟨name⟩ then Effect.ended d 0
    else
      match d.write ⟨name⟩ (.text "") with
      | .ok d => Effect.ended d 0
      | .error f => complaint d tool s!"cannot touch {quoted name}" f

def cat (tool : String) (d : Disk) (args : List String) : Effect :=
  Effect.forEach d args fun d name =>
    match d.text ⟨name⟩ with
    | .ok s => { disk := d, output := s }
    | .error f => complaint d tool name f

def holds (d : Disk) : List String → Bool
  | ["-f", name] => d.isFile ⟨name⟩
  | ["-d", name] => d.isDirectory ⟨name⟩
  | ["-e", name] => d.has ⟨name⟩
  | ["-z", s] => s = ""
  | ["-n", s] => s ≠ ""
  | ["!", "-f", name] => !d.isFile ⟨name⟩
  | ["!", "-d", name] => !d.isDirectory ⟨name⟩
  | ["!", "-e", name] => !d.has ⟨name⟩
  | [s] => s ≠ ""
  | [a, "=", b] => a = b
  | [a, "!=", b] => a ≠ b
  | _ => false

def toolDirectories : List String :=
  ["/bin/", "/usr/bin/"]

def toolName? (command : String) : Option String :=
  toolDirectories.findSome? fun dir =>
    if dir.toList.isPrefixOf command.toList then
      some (String.ofList (command.toList.drop dir.length))
    else none

def runTool? (d : Disk) (command : String) (args : List String) : Option Effect :=
  match toolName? command with
  | some "mkdir" => some (mkdir command d args)
  | some "cp" => some (cp command d args)
  | some "rm" => some (rm command d args)
  | some "touch" => some (touch command d args)
  | some "cat" => some (cat command d args)
  | some "echo" => some { disk := d, output := echoText args }
  | some "true" => some (Effect.ended d 0)
  | some "false" => some (Effect.ended d 1)
  | some "sleep" => some (Effect.ended d 0)
  | some "chmod" => some (Effect.ended d 0)
  | _ => none

end Resettle.Shell
