import PipelineShell.System.Path

set_option autoImplicit false

namespace PipelineShell

structure FileView where
  /-- Something stands at the path; a link counts even if it leads nowhere. -/
  present : Path → Bool
  /-- The path leads to a directory, through links if need be. -/
  isDirectory : Path → Bool
  /-- The names in a directory that can be read, without `.` and `..`. -/
  entries : Path → List Path

namespace FileView

def blank : FileView := ⟨fun _ => false, fun _ => false, fun _ => []⟩

end FileView

end PipelineShell
