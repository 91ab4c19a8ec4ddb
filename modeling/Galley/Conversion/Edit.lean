import Galley.Conversion.Error
import Galley.Document.Basic

/-!
Edits: computations that change a document and may fail. What was done before a failure stays
done. An operation of the document that fails changes nothing (`runOn_perform`).
-/

namespace Galley

/-- A computation on a document that ends with a value or a cause of failure. -/
abbrev Edit (α : Type) := ExceptT ConvertError (StateM Document) α

namespace Edit

/-- The outcome on a document, and the document afterwards. -/
def runOn {α : Type} (edit : Edit α) (d : Document) : Except ConvertError α × Document :=
  StateT.run (ExceptT.run edit) d

/-- Performs an operation that gives a value and the changed document. -/
def perform {α : Type} (operation : Document → Except DocumentError (α × Document)) : Edit α :=
  ExceptT.mk fun d =>
    match operation d with
    | .ok (value, d') => (.ok value, d')
    | .error cause => (.error (.document cause), d)

/-- Performs an operation that only changes the document. -/
def update (operation : Document → Except DocumentError Document) : Edit Unit :=
  perform fun d => (operation d).map fun d' => ((), d')

/-- Asks the document and leaves it as it is. -/
def query {α : Type} (question : Document → Except DocumentError α) : Edit α :=
  perform fun d => (question d).map fun value => (value, d)

@[simp]
theorem runOn_pure {α : Type} (value : α) (d : Document) :
    (pure value : Edit α).runOn d = (.ok value, d) := rfl

@[simp]
theorem runOn_throw {α : Type} (cause : ConvertError) (d : Document) :
    (throw cause : Edit α).runOn d = (.error cause, d) := rfl

/-- The second edit starts from the document that the first leaves, if that succeeds. -/
theorem runOn_bind {α β : Type} (edit : Edit α) (next : α → Edit β) (d : Document) :
    (edit >>= next).runOn d =
      match edit.runOn d with
      | (.ok value, d') => (next value).runOn d'
      | (.error cause, d') => (.error cause, d') := by
  simp only [runOn, bind, ExceptT.bind, ExceptT.run, ExceptT.mk, StateT.bind, StateT.run]
  cases edit d with
  | mk outcome d' => cases outcome <;> rfl

theorem runOn_perform {α : Type} (operation : Document → Except DocumentError (α × Document))
    (d : Document) :
    (perform operation).runOn d =
      match operation d with
      | .ok (value, d') => (.ok value, d')
      | .error cause => (.error (.document cause), d) := by
  simp only [runOn, perform, ExceptT.run, ExceptT.mk, StateT.run]
  split <;> rfl

theorem runOn_update (operation : Document → Except DocumentError Document) (d : Document) :
    (update operation).runOn d =
      match operation d with
      | .ok d' => (.ok (), d')
      | .error cause => (.error (.document cause), d) := by
  rw [update, runOn_perform]
  cases operation d <;> rfl

/-- A question never changes the document. -/
theorem runOn_query {α : Type} (question : Document → Except DocumentError α) (d : Document) :
    (query question).runOn d =
      match question d with
      | .ok value => (.ok value, d)
      | .error cause => (.error (.document cause), d) := by
  rw [query, runOn_perform]
  cases question d <;> rfl

end Edit

end Galley
