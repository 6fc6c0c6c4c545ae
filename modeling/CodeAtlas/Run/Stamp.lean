import CodeAtlas.Text.Quoted

/-! # Stamps

What tells one run from another: an identifier made of random octets, and the time of its report.
-/

namespace CodeAtlas.Run

def hexOctets (octets : List UInt8) : String :=
  .ofList (octets.flatMap fun b => Text.hexDigits 2 b.toNat)

/-- The random identifier that sixteen octets make: the seventh carries the version in its upper
half and the ninth the variant in its upper two bits. -/
def identifier (octets : List UInt8) : String :=
  let marked := (octets.zipIdx).map fun (b, i) =>
    if i = 6 then b % 16 + 64 else if i = 8 then b % 64 + 128 else b
  let part (start count : Nat) : String := hexOctets ((marked.drop start).take count)
  "-".intercalate [part 0 4, part 4 2, part 6 2, part 8 2, part 10 6]

def padded (width n : Nat) : String :=
  let digits := Nat.toDigits 10 n
  .ofList (List.replicate (width - digits.length) '0' ++ digits)

/-- The year, month and day that a number of days after the beginning of 1970 leads to. Years are
counted from March here, so that the leap day is the last day of its year. -/
def civil (days : Nat) : Nat × Nat × Nat :=
  let shifted := days + 719468
  let era := shifted / 146097
  let dayOfEra := shifted % 146097
  let yearOfEra := (dayOfEra - dayOfEra / 1460 + dayOfEra / 36524 - dayOfEra / 146096) / 365
  let dayOfYear := dayOfEra - (365 * yearOfEra + yearOfEra / 4 - yearOfEra / 100)
  let place := (5 * dayOfYear + 2) / 153
  let day := dayOfYear - (153 * place + 2) / 5 + 1
  let month := if place < 10 then place + 3 else place - 9
  (yearOfEra + era * 400 + (if month ≤ 2 then 1 else 0), month, day)

def timeText (seconds microseconds : Nat) : String :=
  let (year, month, day) := civil (seconds / 86400)
  let inDay := seconds % 86400
  let fraction := if microseconds = 0 then "" else "." ++ padded 6 microseconds
  "-".intercalate [padded 4 year, padded 2 month, padded 2 day] ++ "T" ++
    ":".intercalate [padded 2 (inDay / 3600), padded 2 (inDay / 60 % 60), padded 2 (inDay % 60)] ++
    fraction ++ "+00:00"

end CodeAtlas.Run
