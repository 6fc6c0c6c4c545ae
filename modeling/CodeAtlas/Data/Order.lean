import CodeAtlas.Failure

/-! # Sorting by values

Texts are ordered by code points and numbers by size; there is no order between other values. A
list whose keys are not all texts or all numbers cannot be sorted, unless it has one item only.
-/

namespace CodeAtlas.Value

def text? : Value → Option String
  | .text s => some s
  | _ => none

/-- A number as a fraction; infinities have denominator zero. -/
def fraction? : Value → Option (Int × Nat)
  | .int n => some (n, 1)
  | .bool b => some (if b then 1 else 0, 1)
  | .float x =>
    match x.dyadic? with
    | some r => some r
    | none => some (if x.negative then -1 else 1, 0)
  | _ => none

/-- Sorts items by keys, keeping the order of items with the same key. -/
def sortOn {α : Type} (key : α → Value) (items : List α) : Result (List α) :=
  if items.length ≤ 1 then .ok items
  else
    match items.mapM fun x => (key x).text?.map (·, x) with
    | some keyed => .ok ((keyed.mergeSort fun a b => a.1 ≤ b.1).map (·.2))
    | none =>
      match items.mapM fun x => (key x).fraction?.map (·, x) with
      | some keyed =>
        .ok ((keyed.mergeSort fun a b => a.1.1 * b.1.2 ≤ b.1.1 * a.1.2).map (·.2))
      | none => .error (.wrongType "'<' not supported between instances")

end CodeAtlas.Value
