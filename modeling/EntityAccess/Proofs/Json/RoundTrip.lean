import EntityAccess.Proofs.Json.Regularity
import EntityAccess.Proofs.Json.Rendering

/-!
# Requests in texts

A page request, a filter or a patch that is rendered as a text is read back from it
exactly if its document nests no deeper than the reader follows.  From any text only
literals of the kinds that plain JSON tells apart are read.
-/

namespace EntityAccess

namespace Json

mutual

/-- The number of arrays and objects around the innermost part. -/
def nesting : Json → Nat
  | .array items => nestingAll items + 1
  | .object members => nestingMembers members + 1
  | _ => 0

def nestingAll : List Json → Nat
  | [] => 0
  | item :: rest => max item.nesting (nestingAll rest)

def nestingMembers : List (String × Json) → Nat
  | [] => 0
  | (_, json) :: rest => max json.nesting (nestingMembers rest)

end

theorem nestingMembers_le_iff {members : List (String × Json)} {depth : Nat} :
    nestingMembers members ≤ depth ↔ ∀ member ∈ members, member.2.nesting ≤ depth := by
  induction members with
  | nil => simp [nestingMembers]
  | cons member rest ih => rw [nestingMembers, Nat.max_le, ih, List.forall_mem_cons]

theorem nestingAll_le_iff {items : List Json} {depth : Nat} :
    nestingAll items ≤ depth ↔ ∀ item ∈ items, item.nesting ≤ depth := by
  induction items with
  | nil => simp [nestingAll]
  | cons item rest ih => rw [nestingAll, Nat.max_le, ih, List.forall_mem_cons]

theorem areReadable_iff {items : List Json} :
    areReadable items = true ↔ ∀ item ∈ items, item.isReadable = true := by
  induction items with
  | nil => simp [areReadable]
  | cons item rest ih => rw [areReadable, Bool.and_eq_true, ih, List.forall_mem_cons]

theorem membersAreReadable_iff {members : List (String × Json)} :
    membersAreReadable members = true ↔ ∀ member ∈ members, member.2.isReadable = true := by
  induction members with
  | nil => simp [membersAreReadable]
  | cons member rest ih => rw [membersAreReadable, Bool.and_eq_true, ih, List.forall_mem_cons]

/-- A document that nests no deeper is not cut. -/
theorem cut_of_nesting_le {json : Json} (legible : json.Legible) {depth : Nat}
    (shallow : json.nesting ≤ depth) : json.cut depth = json := by
  induction legible generalizing depth with
  | null | bool | integer | float | text => rfl
  | @array items _ ih =>
      have inner := nestingAll_le_iff.1 (Nat.le_sub_one_of_lt shallow)
      have same : items.map (·.cut (depth - 1)) = items.map id :=
        List.map_congr_left fun item isItem => ih item isItem (inner item isItem)
      rw [cut, if_neg (Nat.ne_zero_of_lt shallow), cutAll_eq_map, same, List.map_id]
  | @object members _ ih =>
      have inner := nestingMembers_le_iff.1 (Nat.le_sub_one_of_lt shallow)
      have same : (members.map fun member => (member.1, member.2.cut (depth - 1))) =
          members.map id := List.map_congr_left fun member isMember =>
        congrArg (Prod.mk member.1) (ih member isMember (inner member isMember))
      rw [cut, if_neg (Nat.ne_zero_of_lt shallow), cutMembers_eq_map, same, List.map_id]

/-- A document that nests deeper is unreadable where it is cut. -/
theorem nesting_le_of_isReadable_cut {json : Json} (legible : json.Legible) {depth : Nat}
    (readable : (json.cut depth).isReadable = true) : json.nesting ≤ depth := by
  induction legible generalizing depth with
  | null | bool | integer | float | text => exact Nat.zero_le _
  | @array items _ ih =>
      rw [cut] at readable
      split at readable
      · cases readable
      · rw [cutAll_eq_map, isReadable, areReadable_iff, List.forall_mem_map] at readable
        have inner := nestingAll_le_iff.2 fun item isItem => ih item isItem (readable item isItem)
        rw [nesting]
        omega
  | @object members _ ih =>
      rw [cut] at readable
      split at readable
      · cases readable
      · rw [cutMembers_eq_map, isReadable, membersAreReadable_iff, List.forall_mem_map] at readable
        have inner := nestingMembers_le_iff.2 fun member isMember =>
          ih member isMember (readable member isMember)
        rw [nesting]
        omega

mutual

/-- The doubles of a document. -/
def floats : Json → List Binary64
  | .float x => [x]
  | .array items => floatsOfItems items
  | .object members => floatsOfMembers members
  | _ => []

def floatsOfItems : List Json → List Binary64
  | [] => []
  | item :: rest => item.floats ++ floatsOfItems rest

def floatsOfMembers : List (String × Json) → List Binary64
  | [] => []
  | (_, json) :: rest => json.floats ++ floatsOfMembers rest

end

/-- Each double of the document is the number that its written form is read as. -/
def FloatsReadBack (json : Json) : Prop := ∀ x ∈ json.floats, ReadsBack x

theorem floatsReadBack_array_iff {items : List Json} :
    (array items).FloatsReadBack ↔ ∀ item ∈ items, item.FloatsReadBack := by
  change (∀ x ∈ floatsOfItems items, ReadsBack x) ↔ _
  induction items with
  | nil => simp [floatsOfItems]
  | cons item rest ih =>
      rw [floatsOfItems, List.forall_mem_append, ih, List.forall_mem_cons]
      rfl

theorem floatsReadBack_object_iff {members : List (String × Json)} :
    (object members).FloatsReadBack ↔ ∀ member ∈ members, member.2.FloatsReadBack := by
  change (∀ x ∈ floatsOfMembers members, ReadsBack x) ↔ _
  induction members with
  | nil => simp [floatsOfMembers]
  | cons member rest ih =>
      rw [floatsOfMembers, List.forall_mem_append, ih, List.forall_mem_cons]
      rfl

theorem legible_array
    {items : List Json} (legible : ∀ item ∈ items, item.FloatsReadBack → item.Legible)
    (reads : (array items).FloatsReadBack) : (array items).Legible :=
  .array fun item isItem => legible item isItem (floatsReadBack_array_iff.1 reads item isItem)

theorem legible_object
    {members : List (String × Json)}
    (legible : ∀ member ∈ members, member.2.FloatsReadBack → member.2.Legible)
    (reads : (object members).FloatsReadBack) : (object members).Legible :=
  .object fun member isMember =>
    legible member isMember (floatsReadBack_object_iff.1 reads member isMember)

end Json

theorem Value.legible_toJson
    {value : Value} (plain : value.Plain) (reads : value.toJson.FloatsReadBack) :
    value.toJson.Legible := by
  induction plain with
  | null => exact .null
  | bool b => exact .bool b
  | int n => exact .integer n.le_toInt (Int.lt_trans n.toInt_lt (by decide))
  | @float x finite =>
      rw [toJson, if_pos finite] at reads ⊢
      exact .float (reads x List.mem_cons_self)
  | text s => exact .text s
  | list _ ih =>
      rw [toJson, toJsonAll_eq_map] at reads ⊢
      exact Json.legible_array (List.forall_mem_map.2 ih) reads

namespace Filter

theorem legible_children
    {type : String} {children : List Filter}
    (legible : ∀ child ∈ children, child.toJson.FloatsReadBack → child.toJson.Legible)
    (reads : (node type [("children", .array (toJsonAll children))]).FloatsReadBack) :
    (node type [("children", .array (toJsonAll children))]).Legible := by
  rw [toJsonAll_eq_map] at reads ⊢
  refine Json.legible_object ?_ reads
  simp only [List.forall_mem_cons]
  exact ⟨fun _ => .text type, Json.legible_array (List.forall_mem_map.2 legible),
    List.forall_mem_nil _⟩

theorem legible_toJson
    {filter : Filter} (plain : filter.Plain) (reads : filter.toJson.FloatsReadBack) :
    filter.toJson.Legible := by
  induction plain with
  | compare path op literal_plain =>
      refine Json.legible_object ?_ reads
      simp only [List.forall_mem_cons]
      exact ⟨fun _ => .text _, fun _ => .text path, fun _ => .text op.name,
        Value.legible_toJson literal_plain, List.forall_mem_nil _⟩
  | and _ ih | or _ ih | not _ ih => exact legible_children ih reads

end Filter

namespace PageRequest

theorem forall_mem_memberIf
    {α : Type} {P : String × Json → Prop} {name : String} {write : α → Json} {value : Option α} :
    (∀ member ∈ memberIf name write value, P member) ↔ ∀ a ∈ value, P (name, write a) := by
  cases value <;> simp [memberIf]

/-- What holds of each part that is written holds of each member. -/
theorem forall_mem_members (request : PageRequest) {P : Json → Prop}
    (filter : ∀ filter ∈ request.filter, P filter.toJson)
    (texts : ∀ texts : List String, P (.array (texts.map .text)))
    (terms : ∀ terms : List OrderTerm, P (.array (terms.map OrderTerm.toJson)))
    (skip : ∀ count ∈ request.skip, P (.integer count))
    (take : ∀ count ∈ request.take, P (.integer count)) :
    ∀ member ∈ request.members, P member.2 := by
  simp only [members, List.append_assoc, List.forall_mem_append, forall_mem_memberIf]
  exact ⟨filter, fun paths _ => texts paths, fun orders _ => terms orders, skip, take⟩

theorem legible_toJson
    {request : PageRequest} (plain : request.Plain) (reads : request.toJson.FloatsReadBack) :
    request.toJson.Legible := by
  have texts (strings : List String) :
      ∀ json ∈ strings.map Json.text, json.FloatsReadBack → json.Legible :=
    List.forall_mem_map.2 fun s _ _ => .text s
  have terms (orders : List OrderTerm) :
      ∀ json ∈ orders.map OrderTerm.toJson, json.FloatsReadBack → json.Legible := by
    refine List.forall_mem_map.2 fun term _ => Json.legible_object ?_
    simp only [List.forall_mem_cons]
    exact ⟨fun _ => .text term.path, fun _ => .text term.direction.name, List.forall_mem_nil _⟩
  have count {n : Nat} (fits : n < 0x10000000000000000) : (Json.integer n).Legible :=
    .integer (by omega) (by omega)
  refine Json.legible_object ?_ reads
  exact request.forall_mem_members (P := fun json => json.FloatsReadBack → json.Legible)
    (fun filter present => Filter.legible_toJson (plain.filter filter present))
    (fun strings => Json.legible_array (texts strings))
    (fun orders => Json.legible_array (terms orders))
    (fun n present _ => count (plain.skip n present))
    (fun n present _ => count (plain.take n present))

end PageRequest

theorem Patch.legible_toJson
    {patch : Patch} (plain : patch.Plain) (reads : patch.toJson.FloatsReadBack) :
    patch.toJson.Legible := by
  refine Json.legible_object ?_ reads
  rw [List.forall_mem_map]
  exact fun entry isEntry => Value.legible_toJson (plain entry isEntry)

/-! ## Refusal of what is cut -/

namespace Value

mutual

/-- What is read as a value has no unreadable part. -/
theorem isReadable_of_ofJson?
    {json : Json} {value : Value} (read : ofJson? json = some value) : json.isReadable = true := by
  cases json with
  | array items =>
      obtain ⟨values, readItems, _⟩ := Option.map_eq_some_iff.1 read
      exact areReadable_of_ofJsonAll? readItems
  | object | unreadable => cases read
  | null | bool | integer | float | text => rfl

theorem areReadable_of_ofJsonAll?
    {items : List Json} {values : List Value} (read : ofJsonAll? items = some values) :
    Json.areReadable items = true := by
  cases items with
  | nil => rfl
  | cons item rest =>
      obtain ⟨value, readItem, read⟩ := Option.bind_eq_some_iff.1 read
      obtain ⟨others, readRest, _⟩ := Option.bind_eq_some_iff.1 read
      rw [Json.areReadable, isReadable_of_ofJson? readItem, areReadable_of_ofJsonAll? readRest]
      rfl

end

end Value

/-- What is read as a filter has no unreadable part. -/
theorem Filter.isReadable_of_ofJson?
    {json : Json} {filter : Filter} (read : ofJson? json = some filter) :
    json.isReadable = true := by
  unfold ofJson? at read
  split at read
  case isTrue accepted => exact (Bool.and_eq_true_iff.1 accepted).1
  case isFalse => cases read

/-- What is read as a patch has no unreadable part. -/
theorem Patch.isReadable_of_ofJson?
    {json : Json} {patch : Patch} (read : ofJson? json = some patch) : json.isReadable = true := by
  obtain ⟨members, isObject, read⟩ := Option.bind_eq_some_iff.1 read
  obtain ⟨entries, readEntries, _⟩ := Option.bind_eq_some_iff.1 read
  cases json with
  | object =>
      cases isObject
      refine Json.membersAreReadable_iff.2 fun member isMember => ?_
      obtain ⟨entry, readEntry⟩ := exists_of_mapM_eq_some readEntries member isMember
      obtain ⟨value, readValue, _⟩ := Option.map_eq_some_iff.1 readEntry
      exact Value.isReadable_of_ofJson? readValue
  | _ => cases isObject

namespace Json

theorem lookup_cutMembers (members : List (String × Json)) (depth : Nat) (name : String) :
    (cutMembers members depth).lookup name = (members.lookup name).map (·.cut depth) := by
  induction members with
  | nil => rfl
  | cons member rest ih =>
      rw [cutMembers, List.lookup_cons, List.lookup_cons, ih]
      split <;> rfl

/-- A field that may be null is readable if all that is read from it is. -/
theorem isReadable_of_optionalField?
    {α : Type} {fields : List (String × Json)} {field : Json} {name : String}
    {read? : Json → Option α} {value : Option α}
    (read : optionalField? fields name read? = some value) (found : fields.lookup name = some field)
    (readable : ∀ a, read? field = some a → field.isReadable = true) :
    field.isReadable = true := by
  rw [optionalField?, found] at read
  split at read
  case h_1 absent => cases absent
  case h_2 null => cases null; rfl
  case h_3 same =>
    cases same
    obtain ⟨a, readField, _⟩ := Option.map_eq_some_iff.1 read
    exact readable a readField

end Json

namespace PageRequest

/-- Of the parts of a request the filter alone nests without a bound. -/
theorem nesting_toJson_le
    {request : PageRequest} {depth : Nat} (room : 2 ≤ depth)
    (filter : ∀ filter ∈ request.filter, filter.toJson.nesting ≤ depth) :
    request.toJson.nesting ≤ depth + 1 := by
  have flat {items : List Json} {bound : Nat} (each : ∀ item ∈ items, item.nesting ≤ bound)
      (small : bound < depth) : (Json.array items).nesting ≤ depth :=
    Nat.le_trans (Nat.succ_le_succ (Json.nestingAll_le_iff.2 each)) small
  have texts (strings : List String) : ∀ json ∈ strings.map Json.text, json.nesting ≤ 0 :=
    List.forall_mem_map.2 fun _ _ => Nat.le_refl 0
  have terms (orders : List OrderTerm) :
      ∀ json ∈ orders.map OrderTerm.toJson, json.nesting ≤ 1 :=
    List.forall_mem_map.2 fun _ _ => Nat.le_refl 1
  have shallow : ∀ member ∈ request.members, member.2.nesting ≤ depth :=
    request.forall_mem_members (P := fun json => json.nesting ≤ depth)
      filter (fun strings => flat (texts strings) (by omega))
      (fun orders => flat (terms orders) room)
      (fun _ _ => Nat.zero_le depth) (fun _ _ => Nat.zero_le depth)
  exact Nat.succ_le_succ (Json.nestingMembers_le_iff.2 shallow)

theorem nesting_le_of_ofJson?_cut
    {request found : PageRequest} (plain : request.Plain) (reads : request.toJson.FloatsReadBack)
    {depth : Nat} (room : 2 ≤ depth)
    (read : ofJson? (request.toJson.cut (depth + 1)) = some found) :
    request.toJson.nesting ≤ depth + 1 := by
  simp only [ofJson?, Option.bind_eq_bind, Option.bind_eq_some_iff] at read
  obtain ⟨fields, isRead, _, readFilter, _⟩ := read
  obtain ⟨_, rfl⟩ := Json.fields?_object_eq_some_iff.1 isRead
  -- A request may be read from a document with unreadable parts, so the filter is looked at alone.
  refine nesting_toJson_le room fun filter present => ?_
  have written : request.members.lookup "filter" = some filter.toJson := by
    rw [(lookup_members request).1, present]
    rfl
  have field : (Json.cutMembers request.members depth).lookup "filter" =
      some (filter.toJson.cut depth) := by
    rw [Json.lookup_cutMembers, written]
    rfl
  have legible : filter.toJson.Legible :=
    Filter.legible_toJson (plain.filter filter present)
      (Json.floatsReadBack_object_iff.1 reads _ (Json.mem_of_lookup written))
  exact Json.nesting_le_of_isReadable_cut legible
    (Json.isReadable_of_optionalField? readFilter field fun _ => Filter.isReadable_of_ofJson?)

end PageRequest

/-! ## There and back -/

/-- How the plain values of a kind are exchanged as documents and as texts. -/
structure RoundTrips
    {α : Type} (Plain : α → Prop) (write : α → Json) (read? : Json → Option α) : Prop where
  /-- A plain value is read back from its document, at any depth. -/
  document : ∀ a, Plain a → read? (write a) = some a
  /-- It is read back from the text of its document, unless that is too deep to be read at all. -/
  text : ∀ a, Plain a → (write a).FloatsReadBack →
    (Json.parse? (write a).render).bind read? =
      if (write a).nesting ≤ Json.depthLimit then some a else none
  /-- Only plain values are read from texts. -/
  plain : ∀ text a, (Json.parse? text).bind read? = some a → Plain a

/-- A kind whose documents a text can say goes there and back if cut documents are refused. -/
theorem RoundTrips.of_refusal
    {α : Type} {Plain : α → Prop} {write : α → Json} {read? : Json → Option α}
    (document : ∀ a, Plain a → read? (write a) = some a)
    (legible : ∀ a, Plain a → (write a).FloatsReadBack → (write a).Legible)
    (refuses : ∀ a, Plain a → (write a).FloatsReadBack → ∀ found,
      read? ((write a).cut Json.depthLimit) = some found → (write a).nesting ≤ Json.depthLimit)
    (regular : ∀ json, json.Regular → ∀ a, read? json = some a → Plain a) :
    RoundTrips Plain write read? where
  document := document
  text a plain reads := by
    rw [Json.parse?_render (legible a plain reads), Option.bind_some]
    split
    case isTrue shallow =>
      rw [Json.cut_of_nesting_le (legible a plain reads) shallow, document a plain]
    case isFalse deep =>
      -- What is read is the cut document, and nothing can be made of that.
      refine Option.eq_none_iff_forall_ne_some.2 fun found read => ?_
      exact deep (refuses a plain reads found read)
  plain text a read := by
    obtain ⟨json, parsed, read⟩ := Option.bind_eq_some_iff.1 read
    exact regular json (Json.regular_of_parse? parsed) a read

theorem PageRequest.roundTrips : RoundTrips Plain toJson ofJson? :=
  .of_refusal (fun _ => ofJson?_toJson) (fun _ => legible_toJson)
    (fun _ plain reads _ => nesting_le_of_ofJson?_cut plain reads (by decide))
    fun _ regular _ => plain_of_ofJson? regular

theorem Filter.roundTrips : RoundTrips Plain toJson ofJson? :=
  .of_refusal (fun _ => ofJson?_toJson) (fun _ => legible_toJson)
    (fun _ plain reads _ read =>
      Json.nesting_le_of_isReadable_cut (legible_toJson plain reads) (isReadable_of_ofJson? read))
    fun _ regular _ => plain_of_ofJson? regular

theorem Patch.roundTrips : RoundTrips Plain toJson ofJson? :=
  .of_refusal (fun _ => ofJson?_toJson) (fun _ => legible_toJson)
    (fun _ plain reads _ read =>
      Json.nesting_le_of_isReadable_cut (legible_toJson plain reads) (isReadable_of_ofJson? read))
    fun _ regular _ => plain_of_ofJson? regular

/-- A comparison that does not say a literal is with null. -/
theorem Filter.ofJson?_of_unvalued (path : String) (op : Operator) :
    ofJson? (node "compare" [("path", .text path), ("op", .text op.name)]) =
      some (.compare path op .null) := by
  have read : comparison? [("type", .text "compare"), ("path", .text path), ("op", .text op.name)] =
      some (.compare path op .null) := by
    have value : Value.ofJson? .null = some .null := rfl
    simp [comparison?, Json.field?, List.lookup_cons, Json.asText?, Json.nameOf?,
      Operator.ofName?_name, value]
  exact read

namespace Sample

/-- Literals of all plain kinds, an integer and a double of one size among them. -/
def mixedLiterals : Value :=
  .list [.null, .bool true, .int 1, .float ⟨0x3FF0000000000000⟩, .text "\"", .list []]

/-- A request with an empty list of paths to expand and without an order. -/
def mixedRequest : PageRequest where
  filter := some (.or [.compare "score" .isIn mixedLiterals, .compare "nickname" .equals .null])
  expand := some []
  orders := []
  skip := some 0
  take := none

theorem plain_mixedRequest : mixedRequest.Plain where
  filter := by
    rintro _ ⟨⟩
    refine .or ?_
    simp only [List.forall_mem_cons]
    refine ⟨.compare "score" .isIn (.list ?_), .compare "nickname" .equals .null,
      List.forall_mem_nil _⟩
    simp only [List.forall_mem_cons]
    exact ⟨.null, .bool true, .int 1, .float (by decide), .text "\"",
      .list (List.forall_mem_nil _), List.forall_mem_nil _⟩
  skip := by
    rintro _ ⟨⟩
    decide
  take := nofun

theorem floatsReadBack_mixedRequest : mixedRequest.toJson.FloatsReadBack := by
  change ∀ x ∈ [(⟨0x3FF0000000000000⟩ : Binary64)], Json.ReadsBack x
  rw [List.forall_mem_singleton]
  rfl

/-- A list around as many lists as the number says. -/
def nestedLists : Nat → Value
  | 0 => .list []
  | count + 1 => .list [nestedLists count]

theorem plain_nestedLists (count : Nat) : (nestedLists count).Plain := by
  induction count with
  | zero => exact .list (List.forall_mem_nil _)
  | succ count ih => exact .list (List.forall_mem_singleton.2 ih)

theorem nesting_nestedLists (count : Nat) : (nestedLists count).toJson.nesting = count + 1 := by
  induction count with
  | zero => rfl
  | succ count ih =>
      change max (nestedLists count).toJson.nesting 0 + 1 = count + 1 + 1
      rw [ih, Nat.max_zero]

theorem floats_nestedLists (count : Nat) : (nestedLists count).toJson.floats = [] := by
  induction count with
  | zero => rfl
  | succ count ih =>
      change (nestedLists count).toJson.floats ++ [] = []
      rw [ih]
      rfl

/-- A patch of one field with as many lists as the number says around an empty one. -/
def nestedPatch (count : Nat) : Patch := ⟨[("a", nestedLists count)], List.pairwise_singleton _ _⟩

end Sample

/-- Requests, filters and patches go there and back, and what a document leaves out is restored. -/
theorem documents_roundTrip :
    RoundTrips PageRequest.Plain PageRequest.toJson PageRequest.ofJson? ∧
      RoundTrips Filter.Plain Filter.toJson Filter.ofJson? ∧
      RoundTrips Patch.Plain Patch.toJson Patch.ofJson? ∧
      (∀ path, OrderTerm.ofJson? (.object [("path", .text path)]) = some ⟨path, .ascending⟩) ∧
      ∀ path op, Filter.ofJson? (Filter.node "compare" [("path", .text path),
        ("op", .text (Operator.name op))]) = some (.compare path op .null) :=
  ⟨PageRequest.roundTrips, Filter.roundTrips, Patch.roundTrips, OrderTerm.ofJson?_of_undirected,
    Filter.ofJson?_of_unvalued⟩

theorem documents_roundTrip_mixed :
    Sample.mixedRequest.Plain ∧ Sample.mixedRequest.toJson.FloatsReadBack ∧
      (Json.parse? Sample.mixedRequest.toJson.render).bind PageRequest.ofJson? =
        some Sample.mixedRequest := by
  have plain := Sample.plain_mixedRequest
  have reads := Sample.floatsReadBack_mixedRequest
  have shallow : Sample.mixedRequest.toJson.nesting ≤ Json.depthLimit := by decide
  exact ⟨plain, reads, (documents_roundTrip.1.text _ plain reads).trans (if_pos shallow)⟩

/-- A text of 127 lists in an object is plain and too deep to be read. -/
theorem not_reads_back_deep :
    ¬ ∀ patch : Patch, patch.Plain → patch.toJson.FloatsReadBack →
      (Json.parse? patch.toJson.render).bind Patch.ofJson? = some patch := by
  intro readsBack
  have plain : (Sample.nestedPatch 126).Plain :=
    List.forall_mem_singleton.2 (Sample.plain_nestedLists 126)
  have noFloats : (Sample.nestedPatch 126).toJson.floats = [] := by
    change (Sample.nestedLists 126).toJson.floats ++ [] = []
    rw [Sample.floats_nestedLists]
    rfl
  have reads : (Sample.nestedPatch 126).toJson.FloatsReadBack := by
    rw [Json.FloatsReadBack, noFloats]
    exact List.forall_mem_nil _
  have deep : (Sample.nestedPatch 126).toJson.nesting = 128 := by
    change max (Sample.nestedLists 126).toJson.nesting 0 + 1 = 128
    rw [Sample.nesting_nestedLists]
    rfl
  have read := Patch.roundTrips.text _ plain reads
  rw [readsBack _ plain reads, deep] at read
  cases read

end EntityAccess
