import RouterConsole.Text.Quoted
import RouterConsole.Text.Utf8

/-!
# Files that cannot be read

Two kinds of failure stop the reading of a text file: the file cannot be opened, which is reported
to the operator, or its bytes are not text.
-/
namespace RouterConsole.Storage

inductive Fault where
  | noConfiguration (path : String)
  | missing (path : String)
  | notDirectory (path : String)
  | isDirectory (path : String)
  | nameTooLong (path : String)
  deriving DecidableEq, Repr

def Fault.message : Fault → String
  | .noConfiguration p => "Configuration file not found: " ++ p
  | .missing p => "[Errno 2] No such file or directory: " ++ Text.quoted p
  | .notDirectory p => "[Errno 20] Not a directory: " ++ Text.quoted p
  | .isDirectory p => "[Errno 21] Is a directory: " ++ Text.quoted p
  | .nameTooLong p => "[Errno 36] File name too long: " ++ Text.quoted p

/-- Why reading a file fails in a way that no part of the program expects. -/
inductive Crash where
  | notText (fault : Text.Utf8Fault)
  | nulInPath
  deriving DecidableEq, Repr

def Crash.message : Crash → String
  | .nulInPath => "embedded null byte"
  | .notText f =>
    let byte := "0x" ++ String.ofList (Text.hexDigits 2 f.byte.toNat)
    let place :=
      if f.length = 1 then "byte " ++ byte ++ " in position " ++ toString f.position
      else "bytes in position " ++ toString f.position ++ "-" ++
        toString (f.position + f.length - 1)
    let problem := match f.problem with
      | .invalidStart => "invalid start byte"
      | .invalidContinuation => "invalid continuation byte"
      | .unexpectedEnd => "unexpected end of data"
    "'utf-8' codec can't decode " ++ place ++ ": " ++ problem

end RouterConsole.Storage
