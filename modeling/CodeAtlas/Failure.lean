import CodeAtlas.Data.Display
import CodeAtlas.Text.Loose

/-! # Failures

What can go wrong, as causes. `Failure.message` holds all the wording.
-/

namespace CodeAtlas

/-- Why a path cannot be used. -/
inductive PathFault where
  | missing
  | exists
  | notDirectory
  | isDirectory
  /-- A part of the path is longer than a name can be. -/
  | nameTooLong
  /-- The path holds a NUL character. -/
  | embeddedNul
  deriving DecidableEq, Repr

def PathFault.message (path : String) : PathFault → String
  | .missing => "[Errno 2] No such file or directory: " ++ Text.quoted path
  | .exists => "[Errno 17] File exists: " ++ Text.quoted path
  | .notDirectory => "[Errno 20] Not a directory: " ++ Text.quoted path
  | .isDirectory => "[Errno 21] Is a directory: " ++ Text.quoted path
  | .nameTooLong => "[Errno 36] File name too long: " ++ Text.quoted path
  | .embeddedNul => "embedded null byte"

/-- Ways in which the graph database, or anything called in its place, fails. -/
inductive Fault where
  | unavailable
  | sessionExpired
  | transient
  | client
  | driver
  | operatingSystem
  | runtime
  | badValue
  | badKey
  | malformedTree
  | connection
  deriving DecidableEq, Repr

namespace Fault

def mayPass : Fault → Bool
  | .unavailable | .sessionExpired | .transient => true
  | _ => false

def isOfDatabase : Fault → Bool
  | .client | .driver => true
  | fault => fault.mayPass

def isOfSystem : Fault → Bool
  | .operatingSystem | .connection => true
  | _ => false

end Fault

inductive Failure where
  | missingEntry (key : String)
  /-- The value has no such operation. -/
  | unsupported (detail : String)
  | wrongType (detail : String)
  /-- The value is of the right type but unusable. -/
  | unusable (detail : String)
  /-- A number is too large. -/
  | beyondRange (detail : String)
  /-- A place lies outside of what there is. -/
  | beyondEnd (detail : String)
  /-- Octets are not text. -/
  | notText (fault : Text.Utf8.Malformed)
  /-- A text holds octets that are no characters. -/
  | notEncodable (fault : Text.Unencodable)
  | path (path : String) (fault : PathFault)
  | configuration (why : String)
  | unnamedType
  | malformedUri (uri : String)
  /-- A tree whose root is not a program; the kind of its root, if it has one. -/
  | noProgram (found : Option String)
  /-- The source is text and not octets. -/
  | sourceIsText
  | unknownSections (names : List String)
  | sectionNotList (name : String)
  /-- A section of a vocabulary with something other than a name in it. -/
  | sectionNotNames (name : String)
  /-- One path was given in place of a list of paths. -/
  | singlePath
  | pathsNotList (typeName : String)
  | notAPath (entry : Value)
  | tooFewWorkers (count : Int)
  | noDirectory (path : String)
  | noFile (path : String)
  | termNotText (typeName : String)
  /-- A tag that no stage carries. -/
  | unknownTag (shown : String)
  | notJson (path : String) (line : Nat) (why : String)
  | notMethodUri (uri : String)
  | unknownTool (name : String) (known : List String)
  /-- The arguments are not the ones that the tool takes. -/
  | toolArguments (name : String) (expected missing : List String) (unexpected : List Value)
  /-- No connection to the graph database. -/
  | noConnection (uri : String) (attempts : Nat)
  /-- The graph database, or anything called in its place, failed. -/
  | raised (fault : Fault) (message : String)
  /-- The user interrupted the run a second time. -/
  | interrupted
  deriving Repr

namespace Failure

def showNames (names : List String) : String := (Value.ofTexts names).shown

def message : Failure → String
  | .missingEntry key => Text.quoted key
  | .unsupported detail | .wrongType detail | .unusable detail | .beyondRange detail
  | .beyondEnd detail => detail
  | .notText m => m.message
  | .notEncodable u => u.message
  | .path p fault => fault.message p
  | .configuration why => why
  | .unnamedType => "TypeDeclaration name must be non-empty"
  | .malformedUri uri => "Malformed entity URI: " ++ uri
  | .noProgram found => "Expected 'program' root node, got '" ++ found.getD "None" ++ "'"
  | .sourceIsText => "Source must be bytes, got str"
  | .unknownSections names => "Unknown vocabulary sections: " ++ ", ".intercalate names
  | .sectionNotList name => s!"Vocabulary section '{name}' must be a list"
  | .sectionNotNames name => s!"Vocabulary section '{name}' must contain non-empty strings"
  | .singlePath => "file_paths must be a list of paths, not a single string"
  | .pathsNotList typeName => s!"file_paths is not iterable: '{typeName}' object is not iterable"
  | .notAPath entry => "Invalid file path entry: " ++ entry.shown
  | .tooFewWorkers count => s!"max_workers must be >= 1, got {count}"
  | .noDirectory p => "Directory not found: " ++ p
  | .noFile p => "File does not exist: " ++ p
  | .termNotText typeName => "search term must be str, got " ++ typeName
  | .unknownTag shown => shown ++ " is not a valid StageTag"
  | .notJson p line why => s!"{p}:{line}: invalid JSON ({why})"
  | .notMethodUri uri => "Not a method URI: " ++ uri
  | .unknownTool name known =>
    s!"Unknown tool '{name}'. Available tools: " ++ ", ".intercalate known
  | .toolArguments name expected missing unexpected =>
    s!"Tool '{name}' expects arguments {showNames expected}; missing={showNames missing} " ++
      s!"unexpected={(Value.list unexpected).shown}"
  | .noConnection uri attempts =>
    s!"Failed to connect to Neo4j at {uri} after {attempts} attempts"
  | .raised .badKey m => Text.quoted m
  | .raised _ m => m
  | .interrupted => ""

def kindName : Failure → String
  | .missingEntry _ | .unknownTool .. | .raised .badKey _ => "KeyError"
  | .unsupported _ => "AttributeError"
  | .wrongType _ | .sourceIsText | .singlePath | .pathsNotList _ | .notAPath _ | .termNotText _ =>
    "TypeError"
  | .unusable _ | .unnamedType | .malformedUri _ | .unknownSections _ | .sectionNotList _
  | .sectionNotNames _ | .tooFewWorkers _ | .unknownTag _ | .notJson .. | .notMethodUri _
  | .toolArguments .. | .path _ .embeddedNul | .raised .badValue _ => "ValueError"
  | .beyondRange _ => "OverflowError"
  | .beyondEnd _ => "IndexError"
  | .notText _ => "UnicodeDecodeError"
  | .notEncodable _ => "UnicodeEncodeError"
  | .path _ .missing | .noDirectory _ | .noFile _ => "FileNotFoundError"
  | .path _ .exists => "FileExistsError"
  | .path _ .notDirectory => "NotADirectoryError"
  | .path _ .isDirectory => "IsADirectoryError"
  | .path _ .nameTooLong => "OSError"
  | .configuration _ => "ConfigValidationError"
  | .noProgram _ | .raised .malformedTree _ => "MalformedTreeError"
  | .noConnection .. => "ConnectionError"
  | .raised .unavailable _ => "ServiceUnavailable"
  | .raised .sessionExpired _ => "SessionExpired"
  | .raised .transient _ => "TransientError"
  | .raised .client _ => "ClientError"
  | .raised .driver _ => "DriverError"
  | .raised .operatingSystem _ => "OSError"
  | .raised .runtime _ => "RuntimeError"
  | .raised .connection _ => "ConnectionError"
  | .interrupted => "KeyboardInterrupt"

/-- A failure of the database that may have passed at the next attempt. -/
def mayPass : Failure → Bool
  | .raised fault _ => fault.mayPass
  | _ => false

def isOfDatabase : Failure → Bool
  | .raised fault _ => fault.isOfDatabase
  | _ => false

/-- A failure of the operating system, of which a connection that is not made is one. -/
def isOfSystem : Failure → Bool
  | .raised fault _ => fault.isOfSystem
  | .path _ fault => fault ≠ .embeddedNul
  | .noDirectory _ | .noFile _ | .noConnection .. => true
  | _ => false

end Failure

abbrev Result := Except Failure

end CodeAtlas
