import CodeAtlas.Tree.Node

/-! # Trees without comments

The grammar admits comments between any two nodes. Such a comment has no parts and fills no field
of the node around it. A tree without comments lacks these nodes; all others keep what they carry.
-/

namespace CodeAtlas.Node

def isComment (n : Node) : Bool := n.kind == "line_comment" || n.kind == "block_comment"

mutual

/-- The tree without the comments below its root. -/
def withoutComments : Node → Node
  | mk l cs => mk l (forestWithoutComments cs)

/-- Trees without the comments among them and below their roots. -/
def forestWithoutComments : List Node → List Node
  | [] => []
  | c :: cs =>
    if c.isComment then forestWithoutComments cs
    else withoutComments c :: forestWithoutComments cs

end

/-- The comments below a node have no parts and fill no field. -/
structure CommentsApart (n : Node) : Prop where
  children_eq_nil : ∀ c ∈ n.descendants, c.isComment = true → c.children = []
  field_eq_none : ∀ c ∈ n.descendants, c.isComment = true → c.label.field = none

theorem forestWithoutComments_eq (cs : List Node) :
    forestWithoutComments cs = (cs.filter (!·.isComment)).map withoutComments := by
  induction cs with
  | nil => simp [forestWithoutComments]
  | cons c cs ih => cases h : c.isComment <;> simp [forestWithoutComments, h, ih]

theorem children_withoutComments (n : Node) :
    n.withoutComments.children = (n.children.filter (!·.isComment)).map withoutComments := by
  cases n with
  | mk l cs => simp [withoutComments, children, forestWithoutComments_eq]

@[simp] theorem label_withoutComments (n : Node) : n.withoutComments.label = n.label := by
  cases n with
  | mk l cs => simp [withoutComments, label]

@[simp] theorem kind_withoutComments (n : Node) : n.withoutComments.kind = n.kind := by
  simp [kind]

@[simp] theorem text_withoutComments (n : Node) : n.withoutComments.text = n.text := by
  simp [text]

@[simp] theorem line_withoutComments (n : Node) : n.withoutComments.line = n.line := by
  simp [line]

@[simp] theorem fills_withoutComments (field : String) (n : Node) :
    n.withoutComments.fills field = n.fills field := by
  simp [fills]

theorem isComment_eq_false {n : Node} {kind : String} (h : n.kind = kind)
    (hk : kind ≠ "line_comment" ∧ kind ≠ "block_comment") : n.isComment = false := by
  simp [isComment, h, hk]

theorem kind_ne_of_isComment {n : Node} (h : n.isComment = true) (kind : String)
    (hk : kind ≠ "line_comment" ∧ kind ≠ "block_comment") : n.kind ≠ kind := by
  intro he
  simp [isComment_eq_false he hk] at h

end CodeAtlas.Node
