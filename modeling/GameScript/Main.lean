import GameScript.CommandLine.Run

namespace GameScript

namespace Program

def usage : String :=
  "Usage: gscript [OPTIONS] <COMMAND>\n\n"
    ++ "Commands:\n"
    ++ "  lex <FILE>      Print the token stream\n"
    ++ "  parse <FILE>    Print the syntax graph and diagnostics\n"
    ++ "  fmt [PATH]      Format script files\n"
    ++ "  pack <FILE>     Print the whitespace-packed source\n"
    ++ "  verify [PATH]   Check that formatting and packing preserve the syntax graph"

def version : String :=
  "gscript 0.1.0-alpha.1"

def accessError (e : IO.Error) : AccessError :=
  match e with
  | .noFileOrDirectory .. => .notFound
  | .inappropriateType .. => .notFolder
  | e => .other (toString e)

def readContent (path : String) : IO Content := do
  try
    let bytes ← IO.FS.readBinFile path
    match String.fromUTF8? bytes with
    | some text => return .ok text
    | none => return .error (.other "stream did not contain valid UTF-8")
  catch e => return .error (accessError e)

partial def readFolder (path : String) (parts : List String) : IO (List (List String × Content)) := do
  let mut files := []
  for item in ← (System.mkFilePath [path]).readDir do
    let name := item.fileName
    let inner := parts ++ [name]
    if ← item.path.isDir then
      if !Entry.isSkippedFolder name then
        files := files ++ (← readFolder item.path.toString inner)
    else if Entry.isScriptName name then
      files := files ++ [(inner, ← readContent item.path.toString)]
  return files

def readEntry (path : String) : IO Entry := do
  try
    let info ← (System.mkFilePath [path]).metadata
    match info.type with
    | .dir => return .folder (← readFolder path [])
    | _ => return .file (← readContent path)
  catch e => return .missing (accessError e)

def writeAll (writes : List (String × String)) : IO Bool := do
  let mut written := true
  for (path, content) in writes do
    try IO.FS.writeFile path content
    catch e =>
      IO.eprintln ("Error writing " ++ path ++ ": " ++ toString e)
      written := false
  return written

def runInvocation (i : Invocation) : IO UInt32 := do
  let outcome := i.run (← readEntry i.path)
  let written ← writeAll outcome.writes
  IO.print outcome.out
  IO.eprint outcome.err
  return if written then outcome.code.toUInt32 else 1

end Program

end GameScript

def main (args : List String) : IO UInt32 := do
  match GameScript.Request.ofWords args with
  | .error e =>
    IO.eprintln ("error: " ++ e.message)
    return 2
  | .ok .help =>
    IO.println GameScript.Program.usage
    return 0
  | .ok .version =>
    IO.println GameScript.Program.version
    return 0
  | .ok (.run i) => GameScript.Program.runInvocation i
