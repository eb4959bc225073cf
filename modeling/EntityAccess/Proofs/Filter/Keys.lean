import EntityAccess.Proofs.Filter.Meaning
import EntityAccess.Proofs.Record.Reading

/-!
# Predicates of keys

The predicate of a set of keys is decided in one of three ways, by the size of the
set.  All three compare the key of a record with every key of the set, as a
disjunction of single keys does and as an accepted filter on the key field.  For
keys that are not doubles this is sameness, by which stores look for a key.
-/

namespace EntityAccess

/-- Tests that agree on all elements of a list. -/
theorem any_eq_any_of_agree
    {α : Type} {items : List α} {test other : α → Bool}
    (agree : ∀ item ∈ items, test item = other item) : items.any test = items.any other := by
  rw [Bool.eq_iff_iff, List.any_eq_true, List.any_eq_true]
  exact exists_congr fun item => and_congr_right fun isItem => by rw [agree item isItem]

namespace Operator

variable {literal value : Value}

theorem accepts_equals (present : literal ≠ .null) :
    equals.accepts literal value = equalTo literal value :=
  if_neg (by simpa using present)

theorem accepts_isIn {literals : List Value} (present : ∀ literal ∈ literals, literal ≠ .null) :
    isIn.accepts (.list literals) value = literals.any fun literal => equalTo literal value := by
  change (literals.any fun literal =>
    if literal.isNull then value.isNull else equalTo literal value) = _
  exact any_eq_any_of_agree fun literal isLiteral =>
    if_neg (by simpa using present literal isLiteral)

/-- Values that are told apart are equal when they are the same. -/
theorem equalTo_eq_same
    (present : value ≠ .null) (discerned : value.kind.Discerns)
    (literalDiscerned : literal.kind.Discerns) : equalTo literal value = (value == literal) := by
  rw [equalTo, Value.isNull_eq_false_iff.2 present, Bool.not_false, Bool.true_and,
    Bool.eq_iff_iff, beq_iff_eq, Value.compare?_eq_iff_eq discerned literalDiscerned,
    Value.same_iff_eq discerned]

end Operator

/-- A comparison of a field of the record itself asks the one value of this field. -/
theorem Predicate.holds_compare_ofField
    (field : Field) (op : Operator) (operand : Value) (record : Record) :
    (Predicate.compare ⟨.ofField field, op, operand⟩).holds record =
      op.accepts operand ((record.scalar? field.name).getD .null) := by
  rw [Predicate.holds, Comparison.holds, Path.read_ofField, List.any_cons, List.any_nil,
    Bool.or_false]

namespace Shape

variable {shape : Shape} {record : Record}

theorem holds_keyIs {key : Value} (present : key ≠ .null) :
    (shape.keyIs key).holds record = Operator.equalTo key (shape.keyOf record) :=
  (Predicate.holds_compare_ofField shape.keyField .equals key record).trans
    (Operator.accepts_equals present)

variable {keys : List Value}

/-- A test for membership of the key compares it with each element. -/
theorem holds_keyPath_isIn (present : ∀ key ∈ keys, key ≠ .null) :
    (Predicate.compare ⟨shape.keyPath, .isIn, .list keys⟩).holds record =
      keys.any fun key => Operator.equalTo key (shape.keyOf record) :=
  (Predicate.holds_compare_ofField shape.keyField .isIn (.list keys) record).trans
    (Operator.accepts_isIn present)

/-- Whatever the number of keys, each of them is compared. -/
theorem holds_keyIn (present : ∀ key ∈ keys, key ≠ .null) :
    (shape.keyIn keys).holds record =
      keys.any fun key => Operator.equalTo key (shape.keyOf record) := by
  match keys with
  | [] => rfl
  | [key] =>
      rw [List.any_cons, List.any_nil, Bool.or_false]
      exact holds_keyIs (present key (List.mem_singleton_self key))
  | first :: second :: rest => exact holds_keyPath_isIn present

theorem holds_or_keyIs (present : ∀ key ∈ keys, key ≠ .null) :
    (Predicate.or (keys.map shape.keyIs)).holds record =
      keys.any fun key => Operator.equalTo key (shape.keyOf record) := by
  rw [Predicate.holds, Predicate.someHolds_eq_any, List.any_map]
  exact any_eq_any_of_agree fun key isKey => holds_keyIs (present key isKey)

/-- Keys of the type of the key field are bound as they are. -/
theorem compile_isIn_keyName
    (catalog : Catalog) (segment : pathSeparator ∉ shape.keyName.toList)
    (typed : ∀ key ∈ keys, key.kind = shape.keyType.valueKind) :
    Filter.compile catalog shape (.compare shape.keyName .isIn (.list keys)) =
      .ok (.compare ⟨shape.keyPath, .isIn, .list keys⟩) := by
  have bound : List.Forall₂ (Filter.Bound shape.keyType) keys keys :=
    List.forall₂_same.2 fun key isKey =>
      Filter.bound_of_coerce (ScalarType.coerce_of_kind (typed key isKey))
  have defined : Filter.operatorFault? .isIn shape.keyType (.list keys) = none := rfl
  exact (Filter.compile_field_eq_ok_iff shape.field?_keyName rfl segment).2
    ⟨defined, .list keys, .set bound, rfl⟩

/--
For keys that are not doubles, the predicate of a set of keys passes the records
whose key is the same as one of them.  An empty set passes no record.  A
disjunction of the single keys passes the same records, and so does a filter
that asks for membership in the set.
-/
theorem keyIn_agrees
    (catalog : Catalog) (shape : Shape) (exact : shape.keyType ≠ .float)
    (segment : pathSeparator ∉ shape.keyName.toList) (keys : List Value)
    (typed : ∀ key ∈ keys, key.kind = shape.keyType.valueKind) :
    (∀ record, (shape.keyOf record).kind = shape.keyType.valueKind →
        ((shape.keyIn keys).matcher.test record = true ↔
          ∃ key ∈ keys, (shape.keyOf record == key) = true)) ∧
      (∀ record, (shape.keyIn []).matcher.test record = false) ∧
      (shape.keyIn keys).matcher.test = (Predicate.or (keys.map shape.keyIs)).matcher.test ∧
      ∃ predicate,
        Filter.compile catalog shape (.compare shape.keyName .isIn (.list keys)) = .ok predicate ∧
          predicate.matcher.test = (shape.keyIn keys).matcher.test := by
  have present : ∀ key ∈ keys, key ≠ .null := fun key isKey =>
    ScalarType.ne_null_of_kind (typed key isKey)
  have discerns := ScalarType.discerns exact
  simp only [Predicate.test_matcher_eq]
  refine ⟨fun record keyed => ?same, fun _ => rfl, funext fun record => ?disjunction,
    _, compile_isIn_keyName catalog segment typed, funext fun record => ?filter⟩
  case same =>
    rw [holds_keyIn present, List.any_eq_true]
    refine exists_congr fun key => and_congr_right fun isKey => ?_
    rw [Operator.equalTo_eq_same (ScalarType.ne_null_of_kind keyed) (keyed ▸ discerns)
      (typed key isKey ▸ discerns)]
  case disjunction => rw [holds_keyIn present, holds_or_keyIs present]
  case filter => rw [holds_keyIn present, holds_keyPath_isIn present]

/-- A set may repeat a key, and the order of the keys does not matter. -/
theorem keyIn_agrees_treeItem :
    let keys : List Value := [.int 7, .int 2, .int 7]
    Sample.treeItemShape.keyType ≠ .float ∧
      pathSeparator ∉ Sample.treeItemShape.keyName.toList ∧
      (∀ key ∈ keys, key.kind = Sample.treeItemShape.keyType.valueKind) ∧
      (Sample.treeItemShape.keyIn keys).matcher.test (Sample.treeItem 2 "leaf") = true ∧
      (Sample.treeItemShape.keyIn keys).matcher.test (Sample.treeItem 3 "bud") = false ∧
      ∃ predicate,
        Filter.compile Sample.catalog Sample.treeItemShape
            (.compare "id" .isIn (.list keys)) = .ok predicate ∧
          predicate.matcher.test (Sample.treeItem 2 "leaf") = true := by
  intro keys
  have exact : Sample.treeItemShape.keyType ≠ .float := by decide
  have segment : pathSeparator ∉ Sample.treeItemShape.keyName.toList := by decide
  have typed : ∀ key ∈ keys, key.kind = Sample.treeItemShape.keyType.valueKind := by
    simp only [keys, List.forall_mem_cons]
    exact ⟨rfl, rfl, rfl, List.forall_mem_nil _⟩
  obtain ⟨same, _, _, predicate, accepted, agrees⟩ :=
    keyIn_agrees Sample.catalog Sample.treeItemShape exact segment keys typed
  have found : (Sample.treeItemShape.keyIn keys).matcher.test (Sample.treeItem 2 "leaf") = true :=
    (same _ rfl).2 ⟨.int 2, by simp [keys], rfl⟩
  exact ⟨exact, segment, typed, found, rfl, predicate, accepted, agrees ▸ found⟩

end Shape

/-! ## Typed keys -/

/-- The types whose members, as values, are present and told apart by sameness and by order. -/
class RecordKey (Key : Type) [ToValue Key] : Prop where
  present (key : Key) : toValue key ≠ .null
  same_iff (left right : Key) : (toValue left == toValue right) = true ↔ left = right
  compare_iff (left right : Key) :
    (toValue left).compare? (toValue right) = some .eq ↔ left = right

/-- Keys with values of one type, but not doubles, where no two keys have the same value. -/
theorem RecordKey.of_injective
    {Key : Type} [ToValue Key] {type : ScalarType} (exact : type ≠ .float)
    (typed : ∀ key : Key, (toValue key).kind = type.valueKind)
    (injective : ∀ left right : Key, toValue left = toValue right → left = right) :
    RecordKey Key where
  present key := ScalarType.ne_null_of_kind (typed key)
  same_iff left right := by
    rw [Value.same_iff_eq (typed left ▸ ScalarType.discerns exact)]
    exact ⟨injective left right, congrArg toValue⟩
  compare_iff left right := by
    rw [Value.compare?_eq_iff_eq (typed left ▸ ScalarType.discerns exact)
      (typed right ▸ ScalarType.discerns exact)]
    exact ⟨injective left right, congrArg toValue⟩

instance : RecordKey Int64 :=
  .of_injective (by decide : ScalarType.int ≠ .float) (fun _ => rfl) fun _ _ => Value.int.inj

instance : RecordKey Uuid :=
  .of_injective (by decide : ScalarType.uuid ≠ .float) (fun _ => rfl) fun _ _ => Value.uuid.inj

namespace Shape

variable {Key : Type} [ToValue Key] [RecordKey Key] {shape : Shape} {record : Record} {own : Key}

theorem equalTo_iff (key own : Key) :
    Operator.equalTo (toValue key) (toValue own) = true ↔ own = key := by
  have present := Value.isNull_eq_false_iff.2 (RecordKey.present own)
  rw [Operator.equalTo, present, Bool.not_false, Bool.true_and, beq_iff_eq]
  exact RecordKey.compare_iff own key

/-- The predicate of a key passes exactly the records with that key. -/
theorem test_keyIs (keyed : shape.keyOf record = toValue own) (key : Key) :
    (shape.keyIs (toValue key)).matcher.test record = true ↔ own = key := by
  rw [Predicate.test_matcher_eq]
  dsimp only
  rw [holds_keyIs (RecordKey.present key), keyed]
  exact equalTo_iff key own

/-- The predicate of several keys passes exactly the records with one of them. -/
theorem test_keyIn (keyed : shape.keyOf record = toValue own) (keys : List Key) :
    (shape.keyIn (keys.map toValue)).matcher.test record = true ↔ own ∈ keys := by
  have present : ∀ key ∈ keys.map toValue, key ≠ .null :=
    List.forall_mem_map.2 fun key _ => RecordKey.present key
  rw [Predicate.test_matcher_eq]
  dsimp only
  rw [holds_keyIn present, keyed, List.any_map, List.any_eq_true]
  simp [equalTo_iff]

end Shape

end EntityAccess
