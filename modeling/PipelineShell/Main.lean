import PipelineShell.Machine.Host

set_option autoImplicit false

open PipelineShell PipelineShell.Machine

partial def readInput (input : IO.FS.Stream) (read : ByteArray) : IO ByteArray := do
  let block ← input.read 65536
  if block.isEmpty then pure read else readInput input (read ++ block)

def settingNames : List String := ["MSH_JOB_CAPACITY", "MSH_PROMPT", "HOME"]

def main : IO UInt32 := do
  let stream ← IO.getStdin
  let terminal ← stream.isTty
  let input ← readInput stream .empty
  let settings ← settingNames.filterMapM fun name => do
    let value ← IO.getEnv name
    pure (value.map fun value => (name, value))
  let host := Host.boot input.toList terminal ([("PATH", "/usr/bin:/bin")] ++ settings)
  let (status, host) := host.session
  let output ← IO.getStdout
  let errors ← IO.getStderr
  output.write ⟨(host.contentOf host.outputFile).toArray⟩
  output.flush
  errors.write ⟨(host.contentOf host.errorFile).toArray⟩
  errors.flush
  pure (status.elim 1 fun s => s.outcome.exitCode.toUInt32)
