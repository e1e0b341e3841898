import PipelineShell.Machine.Awk.Command
import PipelineShell.Machine.Schedule
import PipelineShell.Machine.Script.Interpreter
import PipelineShell.Machine.Tool.Columns
import PipelineShell.Machine.Tool.Condition
import PipelineShell.Machine.Tool.Copy
import PipelineShell.Machine.Tool.Count
import PipelineShell.Machine.Tool.Expression
import PipelineShell.Machine.Tool.Flow
import PipelineShell.Machine.Tool.Listing
import PipelineShell.Machine.Tool.Order
import PipelineShell.Machine.Tool.Print
import PipelineShell.Machine.Tool.Process
import PipelineShell.Machine.Tool.Sed
import PipelineShell.Machine.Tool.Translate

set_option autoImplicit false

namespace PipelineShell.Machine

def Tool.direct (t : Tool) : Tool := { t with collects := false }

def programs : List (String × Tool) :=
  let interpreter : Tool := { main := Script.interpreter, collects := false }
  [("sh", interpreter), ("dash", interpreter),
    ("env", { main := Tool.env, failureCode := 125 }), ("printenv", { main := Tool.printenv, failureCode := 2 }),
    ("nohup", { main := Tool.nohup, failureCode := 125 }), ("nice", { main := Tool.nice, failureCode := 125 }),
    ("timeout", { main := Tool.timeout, failureCode := 125 }),
    ("cat", (Tool.ofArguments Tool.cat).direct), ("tee", (Tool.ofArguments Tool.tee).direct),
    ("yes", { (Tool.ofArguments Tool.yes).direct with blockFailure := "standard output" }),
    ("head", { Tool.ofArguments Tool.head with blockFailure := "error writing 'standard output'" }),
    ("tail", { Tool.ofArguments Tool.tail with blockFailure := "error writing 'standard output'" }),
    ("sort", { Tool.ofArguments Tool.sort with
      blockFailure := "write failed: 'standard output'", endFailure := "fflush failed: 'standard output'"
      afterword := "write error", failureCode := 2 }),
    ("sed", { Tool.ofArguments Tool.sed with
      blockFailure := "couldn't flush stdout", endFailure := "couldn't flush stdout", failureCode := 4 }),
    ("grep", { Tool.ofArguments Tool.grep with failureCode := 2 }),
    ("egrep", { Tool.ofArguments fun _ arguments => Tool.grep "grep" ("-E" :: arguments) with failureCode := 2 }),
    ("fgrep", { Tool.ofArguments fun _ arguments => Tool.grep "grep" ("-F" :: arguments) with failureCode := 2 }),
    ("awk", { main := Awk.command, failureCode := 2 }),
    ("expr", { Tool.ofArguments Tool.expr with failureCode := 3 }),
    ("ls", { Tool.ofArguments Tool.ls with failureCode := 2 })] ++
  ([("true", Tool.succeed), ("false", Tool.fail), ("sleep", Tool.sleep), ("echo", Tool.echo), ("printf", Tool.printf),
    ("seq", Tool.seq), ("wc", Tool.wc), ("nl", Tool.nl), ("uniq", Tool.uniq), ("comm", Tool.comm), ("join", Tool.join),
    ("cut", Tool.cut), ("paste", Tool.paste), ("fold", Tool.fold), ("expand", Tool.expand), ("tr", Tool.tr),
    ("tac", Tool.tac), ("rev", Tool.rev), ("stat", Tool.stat), ("pwd", Tool.pwd), ("mkdir", Tool.mkdir),
    ("rmdir", Tool.rmdir), ("unlink", Tool.unlink), ("rm", Tool.rm), ("touch", Tool.touch), ("chmod", Tool.chmod),
    ("cp", Tool.cp), ("mv", Tool.mv), ("ln", Tool.ln), ("link", Tool.hardLink), ("basename", Tool.basename),
    ("dirname", Tool.dirname), ("readlink", Tool.readlink), ("realpath", Tool.realpath), ("truncate", Tool.truncate),
    ("test", Tool.test false), ("[", Tool.test true)] :
      List (String × (String → List String → Task))).map fun (name, main) => (name, Tool.ofArguments main)

def library : Library := fun name => (programs.lookup name).map Tool.task

namespace FileTree

def addSystemNode (t : FileTree) (path : String) (c : NodeId → Content) (mode : Nat) : FileTree :=
  match t.locate root path .kept with
  | .ok { parent, name, id? := none, .. } => (t.add parent name { content := c parent, mode }).1
  | _ => t

def addDirectory (t : FileTree) (path : String) (mode : Nat := 0o755) : FileTree :=
  t.addSystemNode path (.directory · []) mode

def standard : FileTree :=
  let directories := ["boot", "dev", "etc", "home", "media", "mnt", "opt", "proc", "run", "srv", "sys", "usr",
    "var", "dev/fd", "usr/bin", "usr/lib", "usr/local", "usr/sbin", "usr/share", "var/tmp"]
  let t : FileTree := directories.foldl (fun (t : FileTree) path => t.addDirectory path) {}
  let t := (t.addDirectory "tmp" 0o1777).addDirectory "root" 0o700
  let t := [("bin", "usr/bin"), ("lib", "usr/lib"), ("sbin", "usr/sbin")].foldl
    (fun t (path, target) => t.addSystemNode path (fun _ => .link target) 0o777) t
  let devices : List (String × Device) := [("null", .sink), ("full", .full), ("zero", .zeros), ("random", .zeros),
    ("urandom", .zeros), ("tty", .absent), ("stdin", .descriptor 0), ("stdout", .descriptor 1),
    ("stderr", .descriptor 2), ("fd/0", .descriptor 0), ("fd/1", .descriptor 1), ("fd/2", .descriptor 2),
    ("fd/3", .descriptor 3)]
  let t := devices.foldl (fun t (name, d) => t.addSystemNode ("dev/" ++ name) (fun _ => .device d) 0o666) t
  programs.foldl (fun t (name, _) => t.addSystemNode ("usr/bin/" ++ name) (fun _ => .program name) 0o755) t

def workPath : String := "/tmp/work"

end FileTree

end PipelineShell.Machine
