import SchemaAudit.Failure

/-!
# Values inside texts

Where a definition needs a text, a document may give any value, and where a message shows a name,
the snapshot may have given it any value. `Doc.write` gives the text of a value, unless an integer
in it has too many digits.

A `Wording` is a text piece by piece, so that it can be told which values it shows. It can be
written if all of these can (`Wording.write_eq`).
-/

namespace SchemaAudit

/-- The text of a value, if it can be written. -/
def Doc.write (d : Doc) : Except Failure String :=
  if d.isWritable then .ok d.display else .error .unwritable

/-- A text is written as it is. -/
theorem Doc.write_text (s : String) : (Doc.text s).write = .ok s := rfl

/-- A piece of a text. -/
inductive Piece where
  | words (s : String)
  /-- A value, shown by its text. -/
  | shown (d : Doc)
  deriving DecidableEq, Repr

namespace Piece

/-- The text of a piece. -/
def text : Piece → String
  | words s => s
  | shown d => d.display

/-- Whether the text of a piece can be written. -/
def isWritable : Piece → Bool
  | words _ => true
  | shown d => d.isWritable

/-- The text of a piece, if it can be written. -/
def write : Piece → Except Failure String
  | words s => .ok s
  | shown d => d.write

@[simp] theorem text_words (s : String) : (words s).text = s := rfl

@[simp] theorem text_shown (d : Doc) : (shown d).text = d.display := rfl

@[simp] theorem isWritable_words (s : String) : (words s).isWritable = true := rfl

@[simp] theorem isWritable_shown (d : Doc) : (shown d).isWritable = d.isWritable := rfl

/-- A piece is written as its text, or not at all. -/
theorem write_eq (p : Piece) :
    p.write = if p.isWritable then .ok p.text else .error .unwritable := by
  cases p with
  | words s => rfl
  | shown d => rfl

end Piece

/-- A text, piece by piece. -/
abbrev Wording := List Piece

namespace Wording

/-- Words that show nothing. -/
instance : Coe String Wording where
  coe s := [.words s]

/-- The text of a value. -/
def value (d : Doc) : Wording :=
  [.shown d]

/-- The text of a wording. -/
def text : Wording → String
  | [] => ""
  | p :: ps => p.text ++ text ps

/-- Whether everything that a wording shows can be written. -/
def isWritable (w : Wording) : Bool :=
  w.all Piece.isWritable

/-- The text of a wording, if everything that it shows can be written. -/
def write : Wording → Except Failure String
  | [] => .ok ""
  | p :: ps => do
    let front ← p.write
    let rest ← write ps
    .ok (front ++ rest)

@[simp] theorem text_nil : text [] = "" := rfl

@[simp] theorem text_cons (p : Piece) (w : Wording) : text (p :: w) = p.text ++ w.text := rfl

@[simp] theorem text_value (d : Doc) : (value d).text = d.display :=
  String.append_empty

@[simp] theorem text_append (v w : Wording) : (v ++ w).text = v.text ++ w.text := by
  induction v with
  | nil => exact String.empty_append.symm
  | cons p ps ih =>
    rw [List.cons_append, text_cons, text_cons, ih, String.append_assoc]

@[simp] theorem isWritable_nil : isWritable [] = true := rfl

@[simp] theorem isWritable_cons (p : Piece) (w : Wording) :
    isWritable (p :: w) = (p.isWritable && w.isWritable) := rfl

@[simp] theorem isWritable_value (d : Doc) : (value d).isWritable = d.isWritable :=
  Bool.and_true _

@[simp] theorem isWritable_append (v w : Wording) :
    (v ++ w).isWritable = (v.isWritable && w.isWritable) :=
  List.all_append

/-- A wording is written as its text, or not at all. -/
theorem write_eq (w : Wording) :
    w.write = if w.isWritable then .ok w.text else .error .unwritable := by
  induction w with
  | nil => rfl
  | cons p ps ih =>
    rw [write, ih, Piece.write_eq, isWritable_cons]
    cases p.isWritable with
    | false => rfl
    | true =>
      cases isWritable ps with
      | false => rfl
      | true => rfl

end Wording

end SchemaAudit
