import EntityAccess.Record

/-!
# Patches

A patch gives some fields new values.  Its entries are kept in the order of their
names, which for texts is the order of their code points and of their encoded
bytes alike, and no name occurs twice.  A patch is first prepared against a shape:
every entry must name a field that a patch may write and carry a value that fits
it, and entries for the key are dropped.  A prepared patch is then written entry by
entry.  A record may still refuse an entry; the entries before it stay written.
-/

namespace EntityAccess

namespace Patch

/-- Put an entry in its place, over an entry of the same name. -/
def insertEntry (field : String) (value : Value) : List (String × Value) → List (String × Value)
  | [] => [(field, value)]
  | (name, old) :: rest =>
      if field < name then (field, value) :: (name, old) :: rest
      else if field = name then (field, value) :: rest
      else (name, old) :: insertEntry field value rest

theorem mem_insertEntry
    {field : String} {value : Value} {entries : List (String × Value)} {entry : String × Value}
    (mem : entry ∈ insertEntry field value entries) :
    entry = (field, value) ∨ entry ∈ entries := by
  induction entries with
  | nil => exact Or.inl (List.mem_singleton.1 mem)
  | cons head rest ih =>
      obtain ⟨name, old⟩ := head
      simp only [insertEntry] at mem
      split at mem
      · simpa using mem
      · split at mem
        · rcases List.mem_cons.1 mem with same | inRest
          · exact Or.inl same
          · exact Or.inr (List.mem_cons_of_mem _ inRest)
        · rcases List.mem_cons.1 mem with same | inRest
          · exact Or.inr (same ▸ List.mem_cons_self)
          · exact (ih inRest).imp id (List.mem_cons_of_mem _)

theorem pairwise_insertEntry
    (field : String) (value : Value) {entries : List (String × Value)}
    (sorted : entries.Pairwise fun a b => a.1 < b.1) :
    (insertEntry field value entries).Pairwise fun a b => a.1 < b.1 := by
  induction entries with
  | nil => exact List.pairwise_singleton _ _
  | cons head rest ih =>
      obtain ⟨name, old⟩ := head
      obtain ⟨first, others⟩ := List.pairwise_cons.1 sorted
      simp only [insertEntry]
      split
      · rename_i before
        refine List.pairwise_cons.2 ⟨fun entry mem => ?_, sorted⟩
        rcases List.mem_cons.1 mem with same | inRest
        · exact same ▸ before
        · exact String.lt_trans before (first entry inRest)
      · rename_i notBefore
        split
        · rename_i same
          exact List.pairwise_cons.2 ⟨fun entry mem => same ▸ first entry mem, others⟩
        · rename_i different
          refine List.pairwise_cons.2 ⟨fun entry mem => ?_, ih others⟩
          rcases mem_insertEntry mem with same | inRest
          · have after : name ≤ field := String.not_lt.1 notBefore
            rw [same]
            exact Std.lt_of_le_of_ne after (Ne.symm different)
          · exact first entry inRest

end Patch

/-- New values for some fields, in the order of the names. -/
structure Patch where
  entries : List (String × Value)
  sorted : entries.Pairwise fun a b => a.1 < b.1

namespace Patch

def empty : Patch := ⟨[], List.Pairwise.nil⟩

/-- Add an entry or replace the one of the same name. -/
def insert (patch : Patch) (field : String) (value : Value) : Patch :=
  ⟨insertEntry field value patch.entries, pairwise_insertEntry field value patch.sorted⟩

/-- The patch of a list of entries, of which the last of each name counts. -/
def ofList (entries : List (String × Value)) : Patch :=
  entries.foldl (fun patch entry => patch.insert entry.1 entry.2) empty

def get? (patch : Patch) (field : String) : Option Value :=
  patch.entries.lookup field

@[simp]
theorem get?_empty (field : String) : empty.get? field = none := rfl

theorem lookup_cons_entry
    (name first : String) (old : Value) (rest : List (String × Value)) :
    ((first, old) :: rest).lookup name = if name = first then some old else rest.lookup name := by
  by_cases here : name = first
  · simp [here]
  · have different : (name == first) = false := by simpa using here
    simp [List.lookup_cons, different, here]

theorem lookup_insertEntry
    (field : String) (value : Value) (entries : List (String × Value)) (name : String) :
    (insertEntry field value entries).lookup name =
      if name = field then some value else entries.lookup name := by
  induction entries with
  | nil => exact lookup_cons_entry name field value []
  | cons head rest ih =>
      obtain ⟨first, old⟩ := head
      simp only [insertEntry]
      split
      · exact lookup_cons_entry name field value _
      · split
        · rename_i same
          subst same
          rw [lookup_cons_entry, lookup_cons_entry]
          split <;> rfl
        · rename_i different
          rw [lookup_cons_entry, lookup_cons_entry, ih]
          by_cases here : name = first
          · have wanted : name ≠ field := fun same => different (same.symm.trans here)
            rw [if_pos here, if_neg wanted, if_pos here]
          · rw [if_neg here, if_neg here]

/-- An inserted entry is found under its name, and every other entry as before. -/
theorem get?_insert (patch : Patch) (field : String) (value : Value) (name : String) :
    (patch.insert field value).get? name = if name = field then some value else patch.get? name :=
  lookup_insertEntry field value patch.entries name

def size (patch : Patch) : Nat := patch.entries.length

def isEmpty (patch : Patch) : Bool := patch.entries.isEmpty

end Patch

/-! ## Applying -/

inductive FieldError where
  | unknown (field shape : String)
  /-- The field is read-only or a relation. -/
  | notMutable (field : String)
  | coercion (field : String) (cause : CoercionError)
  /-- The record refused a value that its shape accepts. -/
  | rejected (field : String)
  /-- The patch was prepared for records of another type. -/
  | shapeMismatch (expected found : String)
  deriving DecidableEq, Repr

namespace FieldError

def message : FieldError → String
  | .unknown field shape => "unknown field `" ++ field ++ "` on `" ++ shape ++ "`"
  | .notMutable field => "field `" ++ field ++ "` is not mutable"
  | .coercion field cause => "invalid value for `" ++ field ++ "`: " ++ cause.message
  | .rejected field => "record rejected the value for `" ++ field ++ "`"
  | .shapeMismatch expected found =>
      "patch prepared for `" ++ expected ++ "` applied to `" ++ found ++ "`"

/-- The entry at fault, if a single one is. -/
def field? : FieldError → Option String
  | .unknown field _ => some field
  | .notMutable field => some field
  | .coercion field _ => some field
  | .rejected field => some field
  | .shapeMismatch .. => none

end FieldError

/-- Values bound to the fields of a shape, ready to be written. -/
structure PreparedPatch where
  shape : String
  writes : List (String × Value)

namespace PreparedPatch

def size (patch : PreparedPatch) : Nat := patch.writes.length

def isEmpty (patch : PreparedPatch) : Bool := patch.writes.isEmpty

/-- Write entries onto a record until one is refused; the record is kept as it is then. -/
def writeAll : List (String × Value) → Record → Except FieldError Unit × Record
  | [], record => (.ok (), record)
  | (field, value) :: rest, record =>
      match record.set? field value with
      | some written => writeAll rest written
      | none => (.error (.rejected field), record)

/--
Write the patch onto a record whose type has the name of its shape; the answer
comes with the record afterwards.
-/
def applyTo (patch : PreparedPatch) (record : Record) : Except FieldError Unit × Record :=
  if record.type.name = patch.shape then writeAll patch.writes record
  else (.error (.shapeMismatch patch.shape record.type.name), record)

/-- The record with the patch written, if nothing is refused. -/
def patched (patch : PreparedPatch) (record : Record) : Except FieldError Record :=
  let (answer, written) := patch.applyTo record
  answer.map fun _ => written

end PreparedPatch

namespace Patch

/-- The write of one entry; none for the key, which a patch never changes. -/
def prepareEntry (shape : Shape) (name : String) (value : Value) :
    Except FieldError (Option (String × Value)) :=
  match shape.field? name with
  | none => .error (.unknown name shape.name)
  | some field =>
      if field.key then .ok none
      else if !field.isMutable then .error (.notMutable name)
      else
        match field.coerce value with
        | .ok bound => .ok (some (name, bound))
        | .error cause => .error (.coercion name cause)

/-- The writes of entries, or the error of the first entry at fault. -/
def prepareEntries (shape : Shape) : List (String × Value) →
    Except FieldError (List (String × Value))
  | [] => .ok []
  | (name, value) :: rest => do
      let write? ← prepareEntry shape name value
      let writes ← prepareEntries shape rest
      return write?.toList ++ writes

/-- Check every entry and bind its value to its field. -/
def prepare (patch : Patch) (shape : Shape) : Except FieldError PreparedPatch :=
  (prepareEntries shape patch.entries).map fun writes => ⟨shape.name, writes⟩

/-- Prepare a patch for the type of a record and write it; the record is returned as it is then. -/
def apply (patch : Patch) (catalog : Catalog) (record : Record) :
    Except FieldError Unit × Record :=
  match patch.prepare (catalog.shape record.type) with
  | .error e => (.error e, record)
  | .ok prepared => prepared.applyTo record

end Patch

end EntityAccess
