/-
The command line: prints the access matrix for the settings of the environment.

The log goes to the output as it comes, then the tables, then the counters. If there
is no matrix, the chain of causes goes to the standard error.
-/
import ProjectAccess.Matrix

namespace ProjectAccess.Main

/-- Reads a variable of the environment. -/
def readVariable (name : String) : IO Variable := do
  match ← IO.getEnv name with
  | some value => pure (.text value)
  | none => pure .unset

/-- Reads the environment. -/
def environment : IO Environment := do
  pure {
    catalog := ← readVariable Environment.catalogName
    cacheTtl := ← readVariable Environment.cacheTtlName
    override := ← readVariable Environment.overrideName }

/-- The error behind a failure of the system. -/
def fileError : IO.Error → FileError
  | .noFileOrDirectory .. => .notFound
  | .inappropriateType _ code _ =>
    if code = 21 then .isDirectory else .notDirectory
  | error => .other (toString error)

/-- Reads the text of a file. -/
def readText (path : String) : IO (Except FileError String) := do
  if '\x00' ∈ path.toList then return .error .nulInName
  match ← (IO.FS.readBinFile path).toBaseIO with
  | .error error => return .error (fileError error)
  | .ok bytes =>
    match String.fromUTF8? bytes with
    | some text => return .ok text
    | none => return .error .notText

/-- Random ids, whatever is asked for. -/
def randomIds (count : Nat) : IO Matrix.Supply := do
  let mut ids : Array (BitVec 128) := #[]
  for _ in [0:count] do
    let bytes ← IO.getRandomBytes 16
    let value := bytes.toList.foldl (fun n b => n * 256 + b.toNat) 0
    ids := ids.push (BitVec.ofNat 128 value)
  pure fun n => ids.getD n 0

/-- The text of a link in a chain of causes. -/
def causeText : Cause → String
  | .text text => text
  | .document fault => fault.message

/-- The lines for a fault: its outermost link, then the causes below it. -/
def faultLines (fault : Matrix.Fault) : List String :=
  match fault.chain.map causeText with
  | [] => []
  | [outermost] => ["Error: " ++ outermost]
  | [outermost, cause] => ["Error: " ++ outermost, "", "Caused by:", "    " ++ cause]
  | outermost :: causes =>
    ["Error: " ++ outermost, "", "Caused by:"]
      ++ causes.zipIdx.map fun (cause, n) => "    " ++ toString n ++ ": " ++ cause

end ProjectAccess.Main

open ProjectAccess in
/-- Prints the matrix, or tells why there is none. -/
def main : IO UInt32 := do
  let ids ← Main.randomIds 16
  let now ← IO.monoMsNow
  match ← Matrix.ofEnvironment Main.readText now ids (← Main.environment) with
  | .error fault =>
    for line in Main.faultLines fault do IO.eprintln line
    pure 1
  | .ok matrix =>
    for line in matrix.log ++ matrix.grid ++ [""] ++ matrix.metrics do IO.println line
    pure 0
