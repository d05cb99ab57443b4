import ShardedGraph.Server

/-!
# Command line

Sets up the server of a shard and answers the requests that arrive on standard input, one
in a line: a method, a target and the octets of the body in hexadecimal digits. Each answer
is a line with the status and the octets of its body.

The options name the file of the configuration and may replace the number of the shard and
the number of workers that it gives.
-/

set_option autoImplicit false

namespace ShardedGraph.CommandLine

/-! ## Options -/

/-- What the command line says. -/
structure Options where
  config : Option String := none
  shard : Option UInt64 := none
  threads : Option UInt64 := none
  deriving DecidableEq, Repr

/-- How the command line is written. -/
def usage : String := "usage: --config FILE [--shard-id N] [--threads N]"

namespace Options

/-- Reads the arguments that follow what was read before. -/
def readFrom? (options : Options) : List String → Option Options
  | [] => some options
  | "--config" :: path :: rest => readFrom? { options with config := path } rest
  | "--shard-id" :: number :: rest => do
      let shard ← Number.readNat? UInt64.size number.toList
      readFrom? { options with shard := some (.ofNat shard) } rest
  | "--threads" :: number :: rest => do
      let threads ← Number.readNat? UInt64.size number.toList
      readFrom? { options with threads := some (.ofNat threads) } rest
  | _ => none

/-- A configuration with the numbers that the options replace. -/
def apply (options : Options) (config : Config) : Config :=
  { config with
    shard := options.shard.getD config.shard
    threads := options.threads.getD config.threads }

end Options

/-! ## Requests in lines -/

/-- Answers a line; a line that is no request is a bad one. Of a stop, its wording is reported. -/
def answerLine (server : Server) (line : String) : Draw String := do
  let answer := server.route Error.message
  let response ←
    match Text.words line.toList with
    | [method, target] => answer (String.ofList method) (String.ofList target) []
    | [method, target, body] =>
        match Text.readOctets? body with
        | some octets => answer (String.ofList method) (String.ofList target) octets
        | none => pure (.empty .badRequest)
    | _ => pure (.empty .badRequest)
  return s!"{response.status.code} " ++ Text.writeOctets response.body

/-! ## The outside -/

/-- Reads a file under a name of its own; a file that cannot be read is not there. -/
def readFile (name : String) : Option String → IO (Option String × List (String × List UInt8))
  | none => return (none, [])
  | some path => do
      let content ← (IO.FS.readBinFile path).toBaseIO
      match content with
      | .ok bytes => return (some name, [(name, bytes.toList)])
      | .error _ => return (some name, [])

/-- Reads the files that a configuration names. -/
def readFiles (config : Config) : IO (Folder × Config) := do
  let (graphFile, contexts) ← readFile "contexts" config.graphFile
  let (namespaceFile, namespaces) ← readFile "namespaces" config.namespaceFile
  let (nodeFeatureFile, nodeFeatures) ← readFile "nodeFeatures" config.nodeFeatureFile
  let (neighborFeatureFile, neighborFeatures) ←
    readFile "neighborFeatures" config.neighborFeatureFile
  return (⟨contexts ++ namespaces ++ nodeFeatures ++ neighborFeatures⟩,
    { config with graphFile, namespaceFile, nodeFeatureFile, neighborFeatureFile })

/-- Answers lines until the input ends. -/
partial def serve (server : Server) (stream : WordStream) : IO Unit := do
  let line ← (← IO.getStdin).getLine
  if line.isEmpty then return
  let (answer, stream) := answerLine server line stream
  let output ← IO.getStdout
  output.putStrLn answer
  output.flush
  serve server stream

/-- Says what went wrong. -/
def fail (text : String) : IO UInt32 := do
  IO.eprintln ("Error: " ++ text)
  return 1

/-- Runs the server that the options describe. -/
def run (options : Options) : IO UInt32 := do
  let (name, files) ← readFile "config" options.config
  let stream := WordStream.ofSeed (UInt64.ofNat (← IO.monoNanosNow))
  match Config.load ⟨files⟩ (name.getD "config") with
  | .error error => fail error.message
  | .ok config => do
      let (folder, config) ← readFiles (options.apply config)
      match Server.setUp folder config stream with
      | .error error => fail error.message
      | .ok server => do
          serve server stream
          return 0

end ShardedGraph.CommandLine

def main (arguments : List String) : IO UInt32 :=
  match ShardedGraph.CommandLine.Options.readFrom? {} arguments with
  | none => ShardedGraph.CommandLine.fail ShardedGraph.CommandLine.usage
  | some options => ShardedGraph.CommandLine.run options
