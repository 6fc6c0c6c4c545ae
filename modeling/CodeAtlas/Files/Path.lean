import CodeAtlas.Text.Blank

/-! # Paths

A path is a text whose parts are separated by slashes. `absolute` gives every path the one form
without empty parts, `.` and `..`; it looks at the text only and not at any file.
-/

namespace CodeAtlas.Path

/-- Cuts a text at every occurrence of a character. -/
def splitAt (sep : Char) : List Char → List (List Char)
  | [] => [[]]
  | c :: cs =>
    if c == sep then [] :: splitAt sep cs
    else
      match splitAt sep cs with
      | [] => [[c]]
      | part :: parts => (c :: part) :: parts

def parts (path : String) : List String := (splitAt '/' path.toList).map String.ofList

/-- Adds a part to the reversed parts of a path, where `anchored` paths start at the top. -/
def push (anchored : Bool) (reversed : List String) (part : String) : List String :=
  if part = "" || part = "." then reversed
  else if part = ".." then
    match reversed with
    | [] => if anchored then [] else [part]
    | last :: rest => if last = ".." then part :: reversed else rest
  else part :: reversed

/-- The slashes that a path starts with: two are kept as two, and more are one. -/
def root (path : String) : String :=
  match path.toList with
  | '/' :: '/' :: '/' :: _ => "/"
  | '/' :: '/' :: _ => "//"
  | '/' :: _ => "/"
  | _ => ""

/-- A path without empty parts, `.` and, where possible, `..`. -/
def normal (path : String) : String :=
  let start := root path
  let names := ((parts path).foldl (push (start != "")) []).reverse
  let text := start ++ "/".intercalate names
  if text = "" then "." else text

def join (directory path : String) : String :=
  if path.startsWith "/" || directory = "" then path
  else if directory.endsWith "/" then directory ++ path
  else directory ++ "/" ++ path

/-- A path without the slash that it may end in. -/
def unslashed (path : String) : String :=
  if path.endsWith "/" then .ofList path.toList.dropLast else path

/-- The absolute form of a path that is seen from the directory `home`. -/
def absolute (home path : String) : String := normal (join home path)

def parent (path : String) : String :=
  match (parts path).dropLast with
  | [""] => "/"
  | names => "/".intercalate names

/-- The extension of a file name: its last dot and what follows it, if anything but dots comes
before. -/
def extension (name : String) : String :=
  let reversed := name.toList.reverse
  let tail := reversed.takeWhile (· != '.')
  match reversed.drop tail.length with
  | [] => ""
  | _ :: before => if before.all (· == '.') then "" else .ofList ('.' :: tail.reverse)

end CodeAtlas.Path
