import EntityAccess.Json.Request
import EntityAccess.Proofs.Number
import EntityAccess.Proofs.Text
import Mathlib.Tactic.SplitIfs

/-!
# Documents of requests

Page requests, filters and patches are read back from the documents that they are
written as, however deep these nest, if their literals are of the kinds that plain
JSON tells apart.  In turn, from documents with integers of 64 bits and finite
doubles nothing but such literals is read.
-/

namespace EntityAccess

namespace Value

/-- A value of the kinds that plain JSON tells apart, lists included. -/
inductive Plain : Value → Prop where
  | null : Plain .null
  | bool (b : Bool) : Plain (.bool b)
  | int (n : Int64) : Plain (.int n)
  | float {x : Binary64} (finite : x.isFinite = true) : Plain (.float x)
  | text (s : String) : Plain (.text s)
  | list {items : List Value} (items_plain : ∀ item ∈ items, Plain item) : Plain (.list items)

theorem toJsonAll_eq_map (items : List Value) : toJsonAll items = items.map toJson := by
  induction items with
  | nil => rfl
  | cons item rest ih => rw [toJsonAll, ih, List.map_cons]

theorem ofJsonAll?_eq_mapM (items : List Json) : ofJsonAll? items = items.mapM ofJson? := by
  induction items with
  | nil => rfl
  | cons item rest ih => rw [ofJsonAll?, ih, List.mapM_cons]

theorem ofInteger_toInt (n : Int64) : ofInteger n.toInt = .int n := by
  rw [ofInteger, exactInt64?_eq_some_iff.2 rfl]

/-- A plain value is read back from its document. -/
theorem ofJson?_toJson {value : Value} (plain : value.Plain) :
    ofJson? value.toJson = some value := by
  induction plain with
  | null | bool | text => rfl
  | int n => rw [toJson, ofJson?, ofInteger_toInt]
  | float finite => rw [toJson, if_pos finite, ofJson?]
  | list _ reads =>
      rw [toJson, ofJson?, ofJsonAll?_eq_mapM, toJsonAll_eq_map, mapM_map_eq_some reads]
      rfl

end Value

namespace Json

theorem fields?_object_eq_some_iff
    {names : List String} {members fields : List (String × Json)} :
    (object members).fields? names = some fields ↔
      namedOnce names members = true ∧ members = fields := by
  rw [fields?, Option.ite_none_right_eq_some, Option.some_inj]

theorem namedOnce_of_sublist
    {names : List String} (distinct : names.Nodup) {members : List (String × Json)}
    (known : (members.map Prod.fst).Sublist names) : namedOnce names members = true :=
  decide_eq_true (distinct.sublist (List.filter_sublist.trans known))

theorem map_fst_zip_sublist (names : List String) (items : List Json) :
    ((names.zip items).map Prod.fst).Sublist names := by
  induction names generalizing items with
  | nil => exact List.nil_sublist []
  | cons name rest ih =>
      cases items with
      | nil => exact List.nil_sublist (name :: rest)
      | cons item others => exact (ih others).cons_cons name

/-- An array is read as the object of its items under the names of the fields. -/
theorem fields?_array
    {names : List String} (distinct : names.Nodup) {items : List Json}
    (few : items.length ≤ names.length) :
    (array items).fields? names = (object (names.zip items)).fields? names := by
  have once := namedOnce_of_sublist distinct (map_fst_zip_sublist names items)
  rw [fields?, fields?, if_pos few, if_pos once]

end Json

namespace Filter

/-- A filter all of whose literals are plain. -/
inductive Plain : Filter → Prop where
  | compare (path : String) (op : Operator) {literal : Value} (literal_plain : literal.Plain) :
      Plain (.compare path op literal)
  | and {children : List Filter} (children_plain : ∀ child ∈ children, Plain child) :
      Plain (.and children)
  | or {children : List Filter} (children_plain : ∀ child ∈ children, Plain child) :
      Plain (.or children)
  | not {children : List Filter} (children_plain : ∀ child ∈ children, Plain child) :
      Plain (.not children)

theorem toJsonAll_eq_map (filters : List Filter) : toJsonAll filters = filters.map toJson := by
  induction filters with
  | nil => rfl
  | cons filter rest ih => rw [toJsonAll, ih, List.map_cons]

theorem ofNodes?_eq_mapM (items : List Json) : ofNodes? items = items.mapM ofNode? := by
  induction items with
  | nil => rfl
  | cons item rest ih => rw [ofNodes?, ih, List.mapM_cons]

theorem comparison?_of_written
    (path : String) (op : Operator) {literal : Value} (plain : literal.Plain) :
    comparison? [("type", .text "compare"), ("path", .text path), ("op", .text op.name),
      ("value", literal.toJson)] = some (.compare path op literal) := by
  have value : Value.ofJson? literal.toJson = some literal := Value.ofJson?_toJson plain
  simp [comparison?, Json.field?, List.lookup_cons, Json.asText?, Json.nameOf?,
    Operator.ofName?_name, value]

theorem childrenOf?_of_written
    (type : String) {children : List Filter}
    (reads : ∀ child ∈ children, ofNode? child.toJson = some child) :
    childrenOf? [("type", .text type), ("children", .array (toJsonAll children))] =
      some children := by
  rw [childrenOf?, if_neg (by decide), childrenOf?, if_pos rfl, ofArray?, ofNodes?_eq_mapM,
    toJsonAll_eq_map, mapM_map_eq_some reads]

theorem ofNode?_toJson {filter : Filter} (plain : filter.Plain) :
    ofNode? filter.toJson = some filter := by
  induction plain with
  | compare path op literal_plain => exact comparison?_of_written path op literal_plain
  | and _ reads => exact congrArg (Option.map Filter.and) (childrenOf?_of_written "and" reads)
  | or _ reads => exact congrArg (Option.map Filter.or) (childrenOf?_of_written "or" reads)
  | not _ reads => exact congrArg (Option.map Filter.not) (childrenOf?_of_written "not" reads)

/-- A plain filter is read back from its document. -/
theorem ofJson?_toJson {filter : Filter} (plain : filter.Plain) :
    ofJson? filter.toJson = some filter := by
  rw [ofJson?_toJson_eq_ofNode?, ofNode?_toJson plain]

/-- A node is read from an array as from the object of its type and its fields. -/
theorem ofNode?_array
    {tag : Json} {type : NodeType} (tagged : NodeType.ofTag? tag = some type) {items : List Json}
    (few : items.length ≤ type.fieldNames.length) :
    ofNode? (.array (tag :: items)) =
      ofNode? (.object (("type", tag) :: type.fieldNames.zip items)) := by
  have distinct : ("type" :: type.fieldNames).Nodup := by cases type <;> decide
  have once : Json.namedOnce ("type" :: type.fieldNames)
      (("type", tag) :: type.fieldNames.zip items) = true :=
    Json.namedOnce_of_sublist distinct ((Json.map_fst_zip_sublist _ items).cons_cons "type")
  have found : Json.field? (("type", tag) :: type.fieldNames.zip items) "type" NodeType.ofTag? =
      some type := tagged
  have parts : type.node? (comparison? (type.fieldNames.zip items)) (firstChildren? items) =
      type.node? (comparison? (("type", tag) :: type.fieldNames.zip items))
        (childrenOf? (("type", tag) :: type.fieldNames.zip items)) := by
    cases type with
    | compare => rfl
    | and | or | not => cases items <;> rfl
  rw [ofNode?, ofNode?, tagged, found, Option.bind_eq_bind, Option.bind_some, Option.bind_some,
    if_pos few, if_pos once, parts]

/-- Only behind another node may a type be given by its position. -/
example : ofJson? (.array [.text "not", .array [.array [.integer 1]]]) = some (.not [.and []]) ∧
    ofJson? (.array [.integer 1]) = none := ⟨rfl, rfl⟩

end Filter

section Members

variable {α : Type} {name : String} {write : α → Json} {value : Option α}

theorem PageRequest.lookup_memberIf (key : String) :
    (memberIf name write value).lookup key = if key = name then value.map write else none := by
  cases value with
  | none => simp [memberIf]
  | some a =>
      rw [memberIf, List.lookup_cons]
      by_cases same : key = name
      · simp [same]
      · have different : (key == name) = false := beq_eq_false_iff_ne.2 same
        rw [different, if_neg same]
        rfl

theorem PageRequest.lookup_memberIf_append (rest : List (String × Json)) (key : String) :
    (memberIf name write value ++ rest).lookup key =
      if key = name then (value.map write).or (rest.lookup key) else rest.lookup key := by
  rw [List.lookup_append, lookup_memberIf]
  split <;> rfl

/-- A field that is there exactly if there is a value is read as this value. -/
theorem Json.optionalField?_of_written
    {fields : List (String × Json)} {read? : Json → Option α}
    (field : fields.lookup name = value.map write)
    (present : ∀ a, write a ≠ .null) (reads : ∀ a ∈ value, read? (write a) = some a) :
    optionalField? fields name read? = some value := by
  rw [optionalField?, field]
  cases value with
  | none => rfl
  | some a =>
      rw [Option.map_some]
      split
      case h_1 absent => cases absent
      case h_2 null => exact absurd (Option.some.inj null) (present a)
      case h_3 written => rw [← Option.some.inj written, reads a rfl]; rfl

theorem PageRequest.map_fst_memberIf_sublist :
    ((memberIf name write value).map Prod.fst).Sublist [name] := by
  cases value with
  | none => exact List.nil_sublist [name]
  | some a => exact List.Sublist.refl [name]

end Members

theorem OrderTerm.ofJson?_toJson (term : OrderTerm) : ofJson? term.toJson = some term := by
  have direction : Json.asNamed? Direction.ofName? (.text term.direction.name) =
      some term.direction := Direction.ofName?_name term.direction
  have fields : term.toJson.fields? ["path", "direction"] =
      some [("path", .text term.path), ("direction", .text term.direction.name)] :=
    Json.fields?_object_eq_some_iff.2 ⟨rfl, rfl⟩
  rw [ofJson?, fields]
  simp [Json.field?, Json.fieldOr?, List.lookup_cons, Json.asText?, direction]

/-- A term that does not say a direction is ascending. -/
theorem OrderTerm.ofJson?_of_undirected (path : String) :
    ofJson? (.object [("path", .text path)]) = some ⟨path, .ascending⟩ := rfl

namespace PageRequest

/-- A request with a plain filter, if any, and numbers of 64 bits. -/
structure Plain (request : PageRequest) : Prop where
  filter : ∀ filter ∈ request.filter, filter.Plain
  skip : ∀ count ∈ request.skip, count < 0x10000000000000000
  take : ∀ count ∈ request.take, count < 0x10000000000000000

theorem asCount?_natCast {count : Nat} (fits : count < 0x10000000000000000) :
    Json.asCount? (.integer count) = some count := by
  rw [Json.asCount?, if_pos ⟨Int.natCast_nonneg count, by omega⟩, Int.toNat_natCast]

/-- No name stands twice in what is written. -/
theorem namedOnce_members (request : PageRequest) :
    Json.namedOnce fieldNames request.members = true := by
  have names : (request.members.map Prod.fst).Sublist fieldNames := by
    simp only [members, List.map_append]
    exact (((map_fst_memberIf_sublist.append map_fst_memberIf_sublist).append
      map_fst_memberIf_sublist).append map_fst_memberIf_sublist).append map_fst_memberIf_sublist
  exact Json.namedOnce_of_sublist (by decide) names

theorem lookup_members (request : PageRequest) :
    request.members.lookup "filter" = request.filter.map Filter.toJson ∧
      request.members.lookup "expand" =
        request.expand.map (fun paths => .array (paths.map .text)) ∧
      request.members.lookup "orders" =
        request.writtenOrders.map (fun terms => .array (terms.map OrderTerm.toJson)) ∧
      request.members.lookup "skip" = request.skip.map (fun (count : Nat) => .integer count) ∧
      request.members.lookup "take" = request.take.map (fun (count : Nat) => .integer count) := by
  simp only [members, List.append_assoc]
  simp [lookup_memberIf_append, lookup_memberIf]

theorem orders_of_written (request : PageRequest) :
    Json.fieldOr? request.members "orders" [] (Json.asArrayOf? OrderTerm.ofJson?) =
      some request.orders := by
  rw [Json.fieldOr?, (lookup_members request).2.2.1, writtenOrders]
  cases orders : request.orders with
  | nil => rfl
  | cons term rest => exact mapM_map_eq_some fun term _ => term.ofJson?_toJson

/-- A plain request is read back from its document. -/
theorem ofJson?_toJson {request : PageRequest} (plain : request.Plain) :
    ofJson? request.toJson = some request := by
  obtain ⟨filterMember, expandMember, _, skipMember, takeMember⟩ := lookup_members request
  have fields : request.toJson.fields? fieldNames = some request.members :=
    Json.fields?_object_eq_some_iff.2 ⟨namedOnce_members request, rfl⟩
  have filter : Json.optionalField? request.members "filter" Filter.ofJson? =
      some request.filter :=
    Json.optionalField?_of_written filterMember (by rintro ⟨⟩ <;> nofun)
      fun filter present => Filter.ofJson?_toJson (plain.filter filter present)
  have expand : Json.optionalField? request.members "expand" (Json.asArrayOf? Json.asText?) =
      some request.expand :=
    Json.optionalField?_of_written expandMember (fun _ => nofun)
      fun paths _ => mapM_map_eq_some fun path _ => rfl
  have skip : Json.optionalField? request.members "skip" Json.asCount? = some request.skip :=
    Json.optionalField?_of_written skipMember (fun _ => nofun)
      fun count present => asCount?_natCast (plain.skip count present)
  have take : Json.optionalField? request.members "take" Json.asCount? = some request.take :=
    Json.optionalField?_of_written takeMember (fun _ => nofun)
      fun count present => asCount?_natCast (plain.take count present)
  rw [ofJson?, fields]
  simp only [Option.bind_eq_bind, Option.bind_some, filter, expand, orders_of_written, skip, take]
  rfl

/-- A request is read from an array as from the object of its fields. -/
theorem ofJson?_array {items : List Json} (few : items.length ≤ fieldNames.length) :
    ofJson? (.array items) = ofJson? (.object (fieldNames.zip items)) := by
  rw [ofJson?, ofJson?, Json.fields?_array (by decide) few]

/-- No member is read twice, but others may repeat. -/
example : ofJson? (.object [("skip", .integer 1), ("skip", .integer 2)]) = none ∧
    ofJson? (.object [("size", .integer 1), ("size", .integer 2)]) = ofJson? (.array []) :=
  ⟨rfl, rfl⟩

end PageRequest

namespace Patch

/-- A patch all of whose values are plain. -/
def Plain (patch : Patch) : Prop := ∀ entry ∈ patch.entries, entry.2.Plain

theorem insertEntry_of_last
    {field : String} {value : Value} {entries : List (String × Value)}
    (last : ∀ entry ∈ entries, entry.1 < field) :
    insertEntry field value entries = entries ++ [(field, value)] := by
  induction entries with
  | nil => rfl
  | cons entry rest ih =>
      obtain ⟨before, others⟩ := List.forall_mem_cons.1 last
      rw [insertEntry, if_neg (String.lt_asymm before), if_neg (String.ne_of_lt before).symm,
        ih others]
      rfl

theorem entries_foldl_insert
    {start : Patch} {entries : List (String × Value)}
    (sorted : (start.entries ++ entries).Pairwise fun a b => a.1 < b.1) :
    (entries.foldl (fun patch entry => patch.insert entry.1 entry.2) start).entries =
      start.entries ++ entries := by
  induction entries generalizing start with
  | nil => rw [List.append_nil]; rfl
  | cons entry rest ih =>
      have last : ∀ earlier ∈ start.entries, earlier.1 < entry.1 := fun earlier isEarlier =>
        (List.pairwise_append.1 sorted).2.2 earlier isEarlier entry List.mem_cons_self
      have inserted : (start.insert entry.1 entry.2).entries = start.entries ++ [entry] :=
        insertEntry_of_last last
      rw [List.append_cons, ← inserted] at sorted ⊢
      exact ih sorted

theorem eq_of_entries
    {left right : Patch} (same : left.entries = right.entries) : left = right := by
  cases left
  cases right
  cases same
  rfl

/-- Entries in the order of their names are those of a patch. -/
theorem ofList_entries (patch : Patch) : ofList patch.entries = patch :=
  eq_of_entries (entries_foldl_insert (List.nil_append patch.entries ▸ patch.sorted))

/-- A plain patch is read back from its document. -/
theorem ofJson?_toJson {patch : Patch} (plain : patch.Plain) :
    ofJson? patch.toJson = some patch := by
  have entries : (patch.entries.map fun entry => (entry.1, entry.2.toJson)).mapM
      (fun member => (Value.ofJson? member.2).map (member.1, ·)) = some patch.entries := by
    refine mapM_map_eq_some fun entry isEntry => ?_
    rw [Value.ofJson?_toJson (plain entry isEntry)]
    rfl
  exact Option.bind_eq_some_iff.2 ⟨_, entries, congrArg some (ofList_entries patch)⟩

end Patch

/-! ## What is read from a text -/

/-- A document whose integers have 64 bits and whose doubles are finite, as a text gives it. -/
inductive Json.Regular : Json → Prop where
  | null : Regular .null
  | bool (b : Bool) : Regular (.bool b)
  | integer {n : Int} (lower : -0x8000000000000000 ≤ n) (upper : n < 0x10000000000000000) :
      Regular (.integer n)
  | float {x : Binary64} (finite : x.isFinite = true) : Regular (.float x)
  | text (s : String) : Regular (.text s)
  | array {items : List Json} (items_regular : ∀ item ∈ items, Regular item) :
      Regular (.array items)
  | object {members : List (String × Json)}
      (members_regular : ∀ member ∈ members, Regular member.2) : Regular (.object members)
  | unreadable : Regular .unreadable

namespace Value

/-- A large integer of 64 bits is the nearest double, which is finite. -/
theorem plain_ofInteger
    {n : Int} (lower : -0x8000000000000000 ≤ n) (upper : n < 0x10000000000000000) :
    (ofInteger n).Plain := by
  unfold ofInteger exactInt64?
  split_ifs with small
  · exact .int _
  · exact .float (Binary64.isFinite_ofMagnitude (Rounding.nearestMagnitude_lt_infinity (by omega)))

/-- From a regular document plain values are read. -/
theorem plain_of_ofJson?
    {json : Json} (regular : json.Regular) {value : Value} (read : ofJson? json = some value) :
    value.Plain := by
  induction regular generalizing value with
  | null => cases read; exact .null
  | bool b => cases read; exact .bool b
  | integer lower upper => cases read; exact plain_ofInteger lower upper
  | float finite => cases read; exact .float finite
  | text s => cases read; exact .text s
  | array _ ih =>
      rw [ofJson?, ofJsonAll?_eq_mapM, Option.map_eq_some_iff] at read
      obtain ⟨values, readItems, rfl⟩ := read
      exact .list (forall_of_mapM_eq_some (fun item isItem _ => ih item isItem) readItems)
  | object | unreadable => cases read

end Value

namespace Json

theorem mem_of_lookup
    {members : List (String × Json)} {name : String} {found : Json}
    (isFound : members.lookup name = some found) : (name, found) ∈ members := by
  obtain ⟨before, behind, rfl, _⟩ := List.lookup_eq_some_iff.1 isFound
  exact List.mem_append_right before List.mem_cons_self

/-- The fields of a regular document are regular. -/
theorem Regular.of_fields?
    {json : Json} {names : List String} {fields : List (String × Json)} (regular : json.Regular)
    (isRead : json.fields? names = some fields) : ∀ field ∈ fields, field.2.Regular := by
  cases regular with
  | object members_regular =>
      obtain ⟨_, rfl⟩ := fields?_object_eq_some_iff.1 isRead
      exact members_regular
  | array items_regular =>
      rw [fields?, Option.ite_none_right_eq_some, Option.some_inj] at isRead
      obtain ⟨_, rfl⟩ := isRead
      exact fun field isField => items_regular field.2 (List.of_mem_zip isField).2
  | _ => cases isRead

/-- A field that was read, if it is there at all. -/
theorem exists_of_optionalField?
    {α : Type} {fields : List (String × Json)} {name : String} {read? : Json → Option α}
    {value : Option α} {a : α} (read : optionalField? fields name read? = some value)
    (present : a ∈ value) : ∃ field, fields.lookup name = some field ∧ read? field = some a := by
  unfold optionalField? at read
  split at read
  case h_1 | h_2 =>
    cases read
    cases present
  case h_3 field _ found =>
    obtain ⟨b, readField, rfl⟩ := Option.map_eq_some_iff.1 read
    cases present
    exact ⟨field, found, readField⟩

end Json

namespace Filter

theorem plain_of_comparison?
    {fields : List (String × Json)} (regular : ∀ field ∈ fields, field.2.Regular)
    {filter : Filter} (read : comparison? fields = some filter) : filter.Plain := by
  simp only [comparison?, Option.bind_eq_bind, Option.bind_eq_some_iff] at read
  obtain ⟨path, _, op, _, literal, readLiteral, same⟩ := read
  cases same
  refine .compare path op (Value.plain_of_ofJson? ?_ readLiteral)
  cases found : fields.lookup "value" with
  | none => exact .null
  | some field => exact regular _ (Json.mem_of_lookup found)

/-- What holds of a comparison and of children makes a plain node of any type. -/
theorem plain_of_node?
    {comparison : Option Filter} {children : Option (List Filter)} {type : NodeType}
    (plain : ∀ filter ∈ comparison, filter.Plain)
    (children_plain : ∀ found ∈ children, ∀ child ∈ found, child.Plain)
    {filter : Filter} (read : type.node? comparison children = some filter) : filter.Plain := by
  cases type with
  | compare => exact plain filter read
  | and | or | not =>
      obtain ⟨found, isFound, rfl⟩ := Option.map_eq_some_iff.1 read
      constructor
      exact children_plain found isFound

/-- The children of a node are those of one member, if there are any. -/
theorem exists_of_childrenOf?
    {members : List (String × Json)} {children : List Filter}
    (read : childrenOf? members = some children) {child : Filter} (isChild : child ∈ children) :
    ∃ member ∈ members, ofArray? member.2 = some children := by
  induction members with
  | nil =>
      cases read
      cases isChild
  | cons member rest ih =>
      rw [childrenOf?] at read
      split at read
      · exact ⟨member, List.mem_cons_self, read⟩
      · obtain ⟨other, isOther, readOther⟩ := ih read
        exact ⟨other, List.mem_cons_of_mem member isOther, readOther⟩

/-- The node of an object is plain if its fields are regular and hold plain children only. -/
theorem plain_of_object
    {members : List (String × Json)}
    (parts : ∀ member ∈ members, member.2.Regular ∧
      ∀ children, ofArray? member.2 = some children → ∀ child ∈ children, child.Plain)
    {filter : Filter} (read : ofNode? (.object members) = some filter) : filter.Plain := by
  obtain ⟨type, _, read⟩ := Option.bind_eq_some_iff.1 read
  obtain ⟨_, read⟩ := Option.ite_none_right_eq_some.1 read
  have regular : ∀ member ∈ members, member.2.Regular := fun member isMember =>
    (parts member isMember).1
  refine plain_of_node? (fun filter => plain_of_comparison? regular) ?_ read
  intro children readChildren child isChild
  obtain ⟨member, isMember, readMember⟩ := exists_of_childrenOf? readChildren isChild
  exact (parts member isMember).2 children readMember child isChild

/-- From a regular document plain filters are read, alone or in an array. -/
theorem plain_of_ofNode?
    {json : Json} (regular : json.Regular) :
    (∀ filter, ofNode? json = some filter → filter.Plain) ∧
      ∀ children, ofArray? json = some children → ∀ child ∈ children, child.Plain := by
  induction regular with
  | @array items items_regular ih =>
      constructor
      case left =>
        intro filter read
        cases items with
        | nil => cases read
        | cons tag rest =>
            have parts : ∀ item ∈ tag :: rest, item.Regular ∧
                ∀ children, ofArray? item = some children → ∀ child ∈ children, child.Plain :=
              fun item isItem => ⟨items_regular item isItem, (ih item isItem).2⟩
            obtain ⟨partsTag, partsRest⟩ := List.forall_mem_cons.1 parts
            obtain ⟨type, tagged, behind⟩ := Option.bind_eq_some_iff.1 read
            obtain ⟨few, _⟩ := Option.ite_none_right_eq_some.1 behind
            -- Read as the object of its type and its fields, the array has the parts of its items.
            rw [ofNode?_array tagged few] at read
            refine plain_of_object (List.forall_mem_cons.2 ⟨partsTag, fun field isField => ?_⟩) read
            exact partsRest field.2 (List.of_mem_zip isField).2
      case right =>
        intro children read
        rw [ofArray?, ofNodes?_eq_mapM] at read
        exact forall_of_mapM_eq_some (fun item isItem => (ih item isItem).1) read
  | @object members members_regular ih =>
      refine ⟨fun filter => plain_of_object fun member isMember => ?_, nofun⟩
      exact ⟨members_regular member isMember, (ih member isMember).2⟩
  | _ => exact ⟨nofun, nofun⟩

theorem plain_of_ofJson?
    {json : Json} (regular : json.Regular) {filter : Filter} (read : ofJson? json = some filter) :
    filter.Plain := by
  unfold ofJson? at read
  split at read
  · exact (plain_of_ofNode? regular).1 filter read
  · cases read

end Filter

theorem Json.lt_of_asCount?
    {json : Json} {count : Nat} (read : json.asCount? = some count) :
    count < 0x10000000000000000 := by
  cases json with
  | integer n =>
      rw [asCount?] at read
      split at read
      · cases read
        omega
      · cases read
  | _ => cases read

/-- From a regular document plain requests are read. -/
theorem PageRequest.plain_of_ofJson?
    {json : Json} (regular : json.Regular) {request : PageRequest}
    (read : ofJson? json = some request) : request.Plain := by
  simp only [ofJson?, Option.bind_eq_bind, Option.bind_eq_some_iff] at read
  obtain ⟨fields, isRead, filter, readFilter, _, _, _, _, skip, readSkip, take, readTake, same⟩ :=
    read
  cases same
  constructor
  case filter =>
    intro filter present
    obtain ⟨field, found, readField⟩ := Json.exists_of_optionalField? readFilter present
    have regularField := regular.of_fields? isRead _ (Json.mem_of_lookup found)
    exact Filter.plain_of_ofJson? regularField readField
  case skip =>
    intro count present
    obtain ⟨_, _, readField⟩ := Json.exists_of_optionalField? readSkip present
    exact Json.lt_of_asCount? readField
  case take =>
    intro count present
    obtain ⟨_, _, readField⟩ := Json.exists_of_optionalField? readTake present
    exact Json.lt_of_asCount? readField

namespace Patch

theorem plain_foldl_insert
    {start : Patch} {entries : List (String × Value)} (startPlain : start.Plain)
    (plain : ∀ entry ∈ entries, entry.2.Plain) :
    (entries.foldl (fun patch entry => patch.insert entry.1 entry.2) start).Plain := by
  induction entries generalizing start with
  | nil => exact startPlain
  | cons entry rest ih =>
      obtain ⟨plainFirst, plainRest⟩ := List.forall_mem_cons.1 plain
      refine ih (fun other isOther => ?_) plainRest
      rcases mem_insertEntry isOther with rfl | isOld
      · exact plainFirst
      · exact startPlain other isOld

/-- From a regular document plain patches are read. -/
theorem plain_of_ofJson?
    {json : Json} (regular : json.Regular) {patch : Patch} (read : ofJson? json = some patch) :
    patch.Plain := by
  simp only [ofJson?, Option.bind_eq_bind, Option.bind_eq_some_iff] at read
  obtain ⟨members, isObject, entries, readEntries, same⟩ := read
  cases same
  cases regular with
  | object members_regular =>
      cases isObject
      refine plain_foldl_insert (List.forall_mem_nil _) ?_
      refine forall_of_mapM_eq_some (fun member isMember entry readEntry => ?_) readEntries
      obtain ⟨value, readValue, rfl⟩ := Option.map_eq_some_iff.1 readEntry
      exact Value.plain_of_ofJson? (members_regular member isMember) readValue
  | _ => cases isObject

end Patch

end EntityAccess
