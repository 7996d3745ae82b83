import Mandala.Core.Text
import Mandala.Data.Json

/-!
# Nix's internal-JSON records

A record is a line with the protocol prefix.  Unknown kinds keep their code, so
a newer producer does not make a line malformed.
-/

namespace Mandala.Forest

open Mandala.Data Mandala.Text

/-- Activity kinds, by the codes of Nix's logger. -/
inductive ActivityType where
  | unknown
  | copyPath
  | fileTransfer
  | realise
  | copyPaths
  | builds
  | build
  | optimiseStore
  | verifyPaths
  | substitute
  | queryPathInfo
  | postBuildHook
  | buildWaiting
  | fetchTree
  | other (code : Int)
  deriving DecidableEq, Repr

def ActivityType.fromCode (code : Int) : ActivityType :=
  if code = 0 then unknown
  else if code = 100 then copyPath
  else if code = 101 then fileTransfer
  else if code = 102 then realise
  else if code = 103 then copyPaths
  else if code = 104 then builds
  else if code = 105 then build
  else if code = 106 then optimiseStore
  else if code = 107 then verifyPaths
  else if code = 108 then substitute
  else if code = 109 then queryPathInfo
  else if code = 110 then postBuildHook
  else if code = 111 then buildWaiting
  else if code = 112 then fetchTree
  else other code

inductive ResultType where
  | fileLinked
  | buildLogLine
  | untrustedPath
  | corruptedPath
  | setPhase
  | progress
  | setExpected
  | postBuildLogLine
  | fetchStatus
  | other (code : Int)
  deriving DecidableEq, Repr

def ResultType.fromCode (code : Int) : ResultType :=
  if code = 100 then fileLinked
  else if code = 101 then buildLogLine
  else if code = 102 then untrustedPath
  else if code = 103 then corruptedPath
  else if code = 104 then setPhase
  else if code = 105 then progress
  else if code = 106 then setExpected
  else if code = 107 then postBuildLogLine
  else if code = 108 then fetchStatus
  else other code

/-- One tolerant record. -/
structure NixMessage where
  action : String
  id : Option ℕ
  typeCode : Option Int
  level : Option Int
  text : Option String
  msg : Option String
  rawMsg : Option String
  fields : List Json

namespace NixMessage

def activityType (message : NixMessage) : Option ActivityType :=
  message.typeCode.map ActivityType.fromCode

def resultType (message : NixMessage) : Option ResultType :=
  message.typeCode.map ResultType.fromCode

def messageText (message : NixMessage) : Option String :=
  message.rawMsg <|> message.msg <|> message.text

end NixMessage

/-- `NIX_JSON_PREFIX`. -/
def nixJsonPrefix : List Char := "@nix ".toList

/-- What a line is: ordinary output, a record, or a malformed record. -/
inductive NixLine where
  | ordinary
  | record (message : NixMessage)
  | malformed

/-- `str::trim_end`. -/
def trimEnd (line : List Char) : List Char :=
  (line.reverse.dropWhile isWhiteSpace).reverse

/-- The reader of a stream whose records come parsed. -/
def unparsed : List Char → Option NixMessage := fun _ => none

/-- `parse_nix_line`, over the reader of the JSON behind the prefix. -/
def parseNixLine (fromStr : List Char → Option NixMessage) (line : List Char) :
    NixLine :=
  match (trimEnd line).dropPrefix? nixJsonPrefix with
  | none => .ordinary
  | some payload =>
      match fromStr payload with
      | none => .malformed
      | some message => .record message

end Mandala.Forest
