import FeatureServing.Proofs.StatementEnvelope

/-!
# Documents that are written and read again

* `FeatureType.ofName_name` : the name of a type that was read is read as that type;
* `PreparedStatement.exists_settle?_toJson`, `StatementSets.read?_toJson` : statements;
* `Feature.read?_toJson`, `ServingKey.read?_toJson`, `Entity.read?_toJson` : entities;
* `Document.read?_toJson` : a document whose types were read is read again as it is;
* `ServingKey.read?_required`, `ServingKey.required_of_read?` : names that are given and derived;
* `Document.read?_of_differ` : what changes the sets of statements changes no more of a document;
* `Document.read?_envelope`, `Document.read?_null`, `Document.read?_nil` : sets in other forms;
* `Document.round_trip` : all this together.
-/

namespace FeatureServing

open Json (Node)

theorem FeatureType.ofName_name (s : String) : ofName (ofName s).name = ofName s := by
  cases h : ofName s with
  | other name =>
    obtain rfl : s = name := by
      unfold ofName at h
      split at h <;> simp_all
    exact h
  | _ => decide +kernel

/-! ## Statements -/

/-- A parameter is read again from what it is written as, once that has settled. -/
theorem Parameter.exists_settle?_toJson (p : Parameter) (room : Nat) :
    ∃ s, p.toJson.settle? (room + 1) = some s ∧
      ∀ below, Parameter.read? (⟨below + 1, s⟩ : Node) = some p := by
  have hname := Json.settle?_ofString room p.name
  have hindex := Json.settle?_ofUInt64 room p.index
  obtain ⟨s, hs⟩ : ∃ s, p.toJson.settle? (room + 1) = some s := by
    refine Json.exists_settle?_record_iff.2 ?_
    simp only [List.forall_mem_cons]
    exact ⟨⟨_, hname⟩, ⟨_, hindex⟩, nofun⟩
  obtain ⟨fs, hfs, hlookup⟩ := Json.exists_fields?_settled hs ["name", "index"]
  have hname := (hlookup "name" (by decide)).trans hname
  have hindex := (hlookup "index" (by decide)).trans hindex
  refine ⟨s, hs, fun below => ?_⟩
  simp only [Parameter.read?, Node.fields?_eq, hfs, Option.map_some, Option.bind_eq_bind,
    Option.bind_some, Fields.required_below, Fields.required_of_lookup hname,
    Fields.required_of_lookup hindex, Node.text?_ofString, Node.uint64?_ofNat]

theorem PreparedStatement.exists_settle?_toJson (s : PreparedStatement) (room : Nat) :
    ∃ t, s.toJson.settle? (room + 3) = some t ∧
      ∀ below, PreparedStatement.read? (⟨below + 3, t⟩ : Node) = some s := by
  have hgroup := Json.settle?_ofOption (Json.settle?_ofInt64 (room + 2)) s.group
  have hposition := Json.settle?_ofUInt64 (room + 2) s.position
  obtain ⟨ps, hparameters, -, hread⟩ := Json.exists_settle?_ofList
    fun p (_ : p ∈ s.parameters) => p.exists_settle?_toJson room
  have hquery := Json.settle?_ofString (room + 2) s.query
  have hprefix := Json.settle?_ofOption (Json.settle?_ofString (room + 2)) s.keyPrefix
  obtain ⟨t, ht⟩ : ∃ t, s.toJson.settle? (room + 3) = some t := by
    refine Json.exists_settle?_record_iff.2 ?_
    simp only [List.forall_mem_cons]
    exact ⟨⟨_, hgroup⟩, ⟨_, hposition⟩, ⟨_, hparameters⟩, ⟨_, hquery⟩, ⟨_, hprefix⟩, nofun⟩
  obtain ⟨fs, hfs, hlookup⟩ := Json.exists_fields?_settled ht fieldNames
  have hgroup := (hlookup "featureGroupId" (by decide)).trans hgroup
  have hposition := (hlookup "preparedStatementIndex" (by decide)).trans hposition
  have hparameters := (hlookup "preparedStatementParameters" (by decide)).trans hparameters
  have hquery := (hlookup "queryOnline" (by decide)).trans hquery
  have hprefix := (hlookup "prefix" (by decide)).trans hprefix
  refine ⟨t, ht, fun below => ?_⟩
  simp only [PreparedStatement.read?, Node.fields?_eq, hfs, Option.map_some, Option.bind_eq_bind,
    Option.bind_some, Fields.required_below, Fields.defaulted_below, Fields.optional_below,
    Fields.nullable_signed hgroup, Fields.required_of_lookup hposition, Node.uint64?_ofNat,
    Fields.defaulted_of_lookup hparameters, hread, Fields.required_of_lookup hquery,
    Node.text?_ofString, Fields.nullable_text hprefix]

theorem StatementSets.readSet?_ofList (set : List PreparedStatement) (room : Nat) :
    readSet? (⟨room + 4, .ofList PreparedStatement.toJson set⟩ : Node) = some set := by
  obtain ⟨t, ht, hlist, hread⟩ := Json.exists_settle?_ofList fun s (_ : s ∈ set) =>
    s.exists_settle?_toJson room
  rw [readSet?_eq, ht, Option.bind_some, PreparedStatement.listOfJson?, if_pos hlist]
  exact hread 123

theorem StatementSets.read?_toJson (s : StatementSets) (room : Nat) :
    StatementSets.read? (⟨room + 5, s.toJson⟩ : Node) = some s := by
  have hfields : Readable.fields? fieldNames (⟨room + 5, s.toJson⟩ : Node) = some _ :=
    Node.fields?_record _ rfl (by decide)
  have hhelper {name : String} {o : Option (List PreparedStatement)} {fs : Fields Json}
      (h : fs.lookup name = some (.ofOption (.ofList PreparedStatement.toJson) o)) :
      fs.nullable name (fun j => readSet? (⟨room + 4, j⟩ : Node)) = some o :=
    Fields.nullable_ofOption h fun set _ => ⟨rfl, readSet?_ofList set room⟩
  simp only [StatementSets.read?, hfields, Option.bind_eq_bind, Option.bind_some,
    Fields.defaulted_below, Fields.optional_below]
  rw [hhelper (o := s.helperSingle) rfl, hhelper (o := s.helperBatch) rfl]
  simp only [Fields.defaulted, List.lookup_cons, String.reduceBEq, readSet?_ofList,
    Option.bind_some]

/-! ## Entities -/

theorem Feature.read?_toJson {f : Feature} (hname : ∃ s, f.type = .ofName s) (room : Nat) :
    Feature.read? (⟨room + 1, f.toJson⟩ : Node) = some f := by
  have htype : FeatureType.ofName f.type.name = f.type := by
    obtain ⟨s, hs⟩ := hname
    rw [hs, FeatureType.ofName_name]
  have hfields : Readable.fields? fieldNames (⟨room + 1, f.toJson⟩ : Node) = some _ :=
    Node.fields?_record _ rfl (by decide)
  simp only [Feature.read?, hfields, Option.bind_eq_bind, Option.bind_some,
    Fields.required_below, Fields.defaulted_below, Fields.optional_below]
  rw [Fields.nullable_signed (o := f.group) rfl]
  simp only [Fields.required, Fields.defaulted, List.lookup_cons, String.reduceBEq,
    Option.bind_some, Node.text?_ofString, Node.flag?_bool, Node.uint64?_ofNat, htype]

theorem ServingKey.read?_toJson (k : ServingKey) (room : Nat) :
    ServingKey.read? (⟨room + 1, k.toJson⟩ : Node) = some k := by
  have hfields : Readable.fields? fieldNames (⟨room + 1, k.toJson⟩ : Node) = some _ :=
    Node.fields?_record _ rfl (by decide)
  simp only [ServingKey.read?, hfields, Option.bind_eq_bind, Option.bind_some,
    Fields.required_below, Fields.defaulted_below, Fields.optional_below]
  rw [Fields.nullable_text (o := k.keyPrefix) rfl, Fields.nullable_text (o := some k.required) rfl]
  simp only [Fields.required, Fields.defaulted, List.lookup_cons, String.reduceBEq,
    Option.bind_some, Node.text?_ofString, Node.flag?_bool, Node.uint64?_ofNat, of,
    Option.getD_some]

theorem Entity.read?_toJson {e : Entity} (hnames : ∀ f ∈ e.features, ∃ s, f.type = .ofName s)
    (room : Nat) : Entity.read? (⟨room + 3, e.toJson⟩ : Node) = some e := by
  have hfields : Readable.fields? fieldNames (⟨room + 3, e.toJson⟩ : Node) = some _ :=
    Node.fields?_record _ rfl (by decide)
  have hkind : readKind? (⟨room + 2, .ofString e.kind.text⟩ : Node) = some e.kind :=
    congrArg some e.kind.ofText_text
  have hfeatures : Readable.list? Feature.read?
      (⟨room + 2, .ofList Feature.toJson e.features⟩ : Node) = some e.features :=
    Node.list?_ofList fun f hf => Feature.read?_toJson (hnames f hf) room
  have hskip : Readable.list? Readable.signed?
      (⟨room + 2, .ofList (fun g => .ofInt g.toInt) e.skip.toList⟩ : Node) = some e.skip.toList :=
    Node.list?_ofList fun g _ => Node.signed?_ofInt g
  simp only [Entity.read?, hfields, Option.bind_eq_bind, Option.bind_some,
    Fields.required_below, Fields.defaulted_below, Fields.optional_below]
  rw [Fields.nullable_ofOption (o := e.servingKeys) rfl fun ks _ =>
    ⟨rfl, Node.list?_ofList fun k _ => ServingKey.read?_toJson k room⟩]
  simp only [Fields.required, Fields.defaulted, List.lookup_cons, String.reduceBEq,
    Option.bind_some, Node.text?_ofString, Node.uint32?_ofNat, hkind, hfeatures, hskip,
    SortedMap.setOfList_toList]

theorem Document.read?_toJson {d : Document}
    (hnames : ∀ f ∈ d.entity.features, ∃ s, f.type = .ofName s) (room : Nat) :
    Document.read? (⟨room + 6, d.toJson⟩ : Node) = some d := by
  have hfields : Readable.fields? ["entity", "statements"] (⟨room + 6, d.toJson⟩ : Node) = some _ :=
    Node.fields?_record _ rfl (by decide)
  have hentity : Entity.read? (⟨room + 5, d.entity.toJson⟩ : Node) = some d.entity :=
    Entity.read?_toJson hnames (room + 2)
  simp only [Document.read?, hfields, Option.bind_eq_bind, Option.bind_some,
    Fields.required_below, Fields.defaulted_below]
  simp only [Fields.required, Fields.defaulted, List.lookup_cons, String.reduceBEq,
    Option.bind_some, hentity, StatementSets.read?_toJson]

/-! ## Types and names that are read -/

section

variable {τ : Type} [Readable τ] {t : τ}

theorem Feature.exists_type_of_read? {f : Feature} (h : Feature.read? t = some f) :
    ∃ s, f.type = .ofName s := by
  simp only [Feature.read?, Option.bind_eq_bind, Option.bind_eq_some_iff] at h
  obtain ⟨_, -, _, -, type, -, _, -, _, -, _, -, _, -, _, -, h⟩ := h
  obtain rfl := Option.some.inj h
  exact ⟨type, rfl⟩

theorem Entity.exists_type_of_read? {e : Entity} (h : Entity.read? t = some e) :
    ∀ f ∈ e.features, ∃ s, f.type = .ofName s := by
  simp only [Entity.read?, Option.bind_eq_bind, Option.bind_eq_some_iff] at h
  obtain ⟨fs, -, _, -, _, -, _, -, features, hfeatures, _, -, _, -, h⟩ := h
  obtain rfl := Option.some.inj h
  intro f hf
  rw [Fields.defaulted] at hfeatures
  split at hfeatures
  · obtain rfl := Option.some.inj hfeatures
    cases hf
  · obtain ⟨ts, -, hts⟩ := Option.bind_eq_some_iff.1 hfeatures
    obtain ⟨t, -, ht⟩ := exists_left_of_forall₂ (mapM_some_iff.1 hts) hf
    exact Feature.exists_type_of_read? ht

theorem Document.exists_type_of_read? [Json.View τ] {d : Document} (h : Document.read? t = some d) :
    ∀ f ∈ d.entity.features, ∃ s, f.type = .ofName s := by
  simp only [Document.read?, Option.bind_eq_bind, Option.bind_eq_some_iff] at h
  obtain ⟨fs, -, entity, hentity, _, -, h⟩ := h
  obtain rfl := Option.some.inj h
  obtain ⟨t, -, ht⟩ := Option.bind_eq_some_iff.1 hentity
  exact Entity.exists_type_of_read? ht

end

namespace ServingKey

variable {room : Nat}

/-- A key from its fields. -/
def ofFields? (room : Nat) (fs : Fields Json) : Option ServingKey := do
  let featureName ← fs.required "featureName" fun j => Readable.text? (⟨room, j⟩ : Node)
  let position ← fs.defaulted "joinIndex" 0 fun j => Readable.uint64? (⟨room, j⟩ : Node)
  let keyPrefix ← fs.nullable "prefix" fun j => Readable.text? (⟨room, j⟩ : Node)
  let ignorePrefix ← fs.defaulted "ignorePrefix" false fun j => Readable.flag? (⟨room, j⟩ : Node)
  let required ← fs.nullable "requiredServingKey" fun j => Readable.text? (⟨room, j⟩ : Node)
  some (of featureName position keyPrefix ignorePrefix required)

theorem read?_eq (room : Nat) (j : Json) :
    ServingKey.read? (⟨room + 1, j⟩ : Node) = (j.fields? fieldNames).bind (ofFields? room) := by
  simp only [ServingKey.read?, Node.fields?_eq, Option.bind_eq_bind, Option.bind_map,
    Function.comp_def, Fields.required_below, Fields.defaulted_below, Fields.optional_below]
  rfl

variable {t t' : Json}

theorem required_of_read? {j : Json} {k : ServingKey}
    (hadds : Json.Adds fieldNames "requiredServingKey" j t t')
    (h : ServingKey.read? (⟨room + 1, t⟩ : Node) = some k) :
    k.required = derivedName k.featureName k.keyPrefix k.ignorePrefix := by
  rw [read?_eq, Option.bind_eq_some_iff] at h
  obtain ⟨fs, hfs, h⟩ := h
  have hmissing := hadds.lookup_eq_none (by decide) hfs
  simp only [ofFields?, Fields.nullable_of_missing hmissing, Option.bind_eq_bind, Option.bind_some,
    Option.bind_eq_some_iff] at h
  obtain ⟨_, -, _, -, _, -, _, -, h⟩ := h
  obtain rfl := Option.some.inj h
  rfl

/-- A name of its own replaces the derived one, and nothing else; null is no name. -/
theorem read?_required {o : Option String}
    (h : Json.Adds fieldNames "requiredServingKey" (.ofOption .ofString o) t t') :
    ServingKey.read? (⟨room + 1, t'⟩ : Node) =
      (ServingKey.read? (⟨room + 1, t⟩ : Node)).map fun k =>
        { k with required := o.getD k.required } := by
  rw [read?_eq, read?_eq, Option.map_bind]
  refine h.bind_fields? (by decide) fun base fs h => ?_
  have hname : fs.nullable "requiredServingKey" (fun j => Readable.text? (⟨room, j⟩ : Node)) =
      some o := Fields.nullable_text h.found
  have hmissing := Fields.nullable_of_missing h.missing fun j =>
    Readable.text? (⟨room, j⟩ : Node)
  change ofFields? room fs = (ofFields? room base).map _
  simp (disch := decide) only [ofFields?, h.required_other, h.defaulted_other, h.nullable_other,
    hname, hmissing]
  simp only [Option.bind_eq_bind, Option.map_bind, Function.comp_def, Option.bind_some,
    Option.map_some, of, Option.getD_none]

end ServingKey

namespace Document

def fieldNames : List String :=
  ["entity", "statements"]

variable {room : Nat} {sets sets' t t' : Json}

theorem read?_of_differ {g : StatementSets → StatementSets}
    (h : Json.Differ fieldNames "statements" sets sets' t t')
    (hsets : StatementSets.read? (⟨room, sets⟩ : Node) =
      (StatementSets.read? (⟨room, sets'⟩ : Node)).map g) :
    Document.read? (⟨room + 1, t⟩ : Node) =
      (Document.read? (⟨room + 1, t'⟩ : Node)).map fun d =>
        { d with statements := g d.statements } := by
  simp only [Document.read?, Node.fields?_eq, Option.bind_eq_bind, Option.bind_map,
    Option.map_bind, Function.comp_def, Fields.required_below, Fields.defaulted_below]
  refine h.bind_fields? (by decide) fun base fs fs' hfs hfs' => ?_
  simp (disch := decide) only [hfs.required_other, hfs'.required_other,
    Fields.defaulted_of_lookup hfs.found, Fields.defaulted_of_lookup hfs'.found, hsets]
  simp only [Option.bind_map, Function.comp_def, Option.map_some]

theorem read?_congr (h : Json.Differ fieldNames "statements" sets sets' t t')
    (hsets : StatementSets.read? (⟨room, sets⟩ : Node) =
      StatementSets.read? (⟨room, sets'⟩ : Node)) :
    Document.read? (⟨room + 1, t⟩ : Node) = Document.read? (⟨room + 1, t'⟩ : Node) :=
  (read?_of_differ (g := id) h (hsets.trans (congrFun Option.map_id _).symm)).trans
    (congrFun Option.map_id _)

theorem read?_sets {d : Document} (hdiffer : Json.Differ fieldNames "statements" sets sets' t t')
    (h : Document.read? (⟨room + 1, t⟩ : Node) = some d) :
    StatementSets.read? (⟨room, sets⟩ : Node) = some d.statements := by
  simp only [Document.read?, Node.fields?_eq, Option.bind_eq_bind, Option.bind_map,
    Function.comp_def, Fields.defaulted_below, Option.bind_eq_some_iff] at h
  obtain ⟨fs, hfs, _, -, statements, hstatements, h⟩ := h
  obtain rfl := Option.some.inj h
  rwa [Fields.defaulted_of_lookup (hdiffer.lookup_eq_some (by decide) hfs)] at hstatements

/-- A set of statements may be given as a bare list or in an envelope. -/
theorem read?_envelope {name : String} {items : List Json} {members : List (String × Json)}
    (henvelope : IsEnvelope items members)
    (hsettled : ((Json.record members).settle? room).isSome = true)
    (hsets : Json.Differ StatementSets.fieldNames name (.record members) (.list items) sets sets')
    (h : Json.Differ fieldNames "statements" sets sets' t t') :
    Document.read? (⟨room + 2, t⟩ : Node) = Document.read? (⟨room + 2, t'⟩ : Node) := by
  have hread := StatementSets.readSet?_envelope henvelope hsettled
  exact read?_congr h (StatementSets.read?_congr hsets rfl hread)

variable {batch : Bool}

theorem read?_null
    (hsets : Json.Adds StatementSets.fieldNames (StatementSets.helperName batch) .null sets sets')
    (h : Json.Differ fieldNames "statements" sets' sets t' t) :
    Document.read? (⟨room + 2, t'⟩ : Node) = Document.read? (⟨room + 2, t⟩ : Node) :=
  read?_congr h (StatementSets.read?_null hsets)

theorem read?_nil
    (hsets : Json.Adds StatementSets.fieldNames (StatementSets.helperName batch) (.list []) sets
      sets')
    (h : Json.Differ fieldNames "statements" sets' sets t' t) :
    Document.read? (⟨room + 3, t'⟩ : Node) =
      (Document.read? (⟨room + 3, t⟩ : Node)).map fun d =>
        { d with statements := d.statements.withHelper batch (some []) } :=
  read?_of_differ h (StatementSets.read?_nil hsets)

theorem select_of_read? {j : Json} {d : Document}
    (hsets : Json.Adds StatementSets.fieldNames (StatementSets.helperName batch) j sets sets')
    (hdiffer : Json.Differ fieldNames "statements" sets' sets t' t)
    (h : Document.read? (⟨room + 2, t⟩ : Node) = some d) :
    d.statements.select batch true = none :=
  StatementSets.select_of_read? hsets (read?_sets hdiffer.symm h)

/-- **Documents survive a round trip.**

* What was read as a document, from a tree of any kind, is read again from what it is written as.
* Every document can be read whose types are those of some names.
* A set of statements may be given as a bare list or in an envelope with a count other than zero.
* A helper set that is null or missing is absent; an empty one is there, and empty.
* A serving key has the name that is given to it, or else the derived one, and keeps it when it is
  written and read again. -/
theorem round_trip :
    (∀ {τ : Type} [Readable τ] [Json.View τ] {t : τ} {d : Document}, Document.read? t = some d →
      ∀ room, Document.read? (⟨room + 6, d.toJson⟩ : Node) = some d) ∧
    (∀ {d : Document}, (∃ n : Node, Document.read? n = some d) ↔
      ∀ f ∈ d.entity.features, ∃ s, f.type = .ofName s) ∧
    (∀ {items : List Json} {members : List (String × Json)} {name : String} {room : Nat}
        {sets sets' t t' : Json},
      IsEnvelope items members → ((Json.record members).settle? room).isSome = true →
      Json.Differ StatementSets.fieldNames name (.record members) (.list items) sets sets' →
      Json.Differ fieldNames "statements" sets sets' t t' →
      Document.read? (⟨room + 2, t⟩ : Node) = Document.read? (⟨room + 2, t'⟩ : Node)) ∧
    (∀ {batch : Bool} {room : Nat} {sets nullSets emptySets t nullTree emptyTree : Json},
      Json.Adds StatementSets.fieldNames (StatementSets.helperName batch) .null sets nullSets →
      Json.Adds StatementSets.fieldNames (StatementSets.helperName batch) (.list []) sets
        emptySets →
      Json.Differ fieldNames "statements" nullSets sets nullTree t →
      Json.Differ fieldNames "statements" emptySets sets emptyTree t →
      Document.read? (⟨room + 3, nullTree⟩ : Node) = Document.read? (⟨room + 3, t⟩ : Node) ∧
      Document.read? (⟨room + 3, emptyTree⟩ : Node) =
        (Document.read? (⟨room + 3, t⟩ : Node)).map (fun d =>
          { d with statements := d.statements.withHelper batch (some []) }) ∧
      ∀ {d : Document}, Document.read? (⟨room + 3, t⟩ : Node) = some d →
        d.statements.select batch true = none) ∧
    (∀ {o : Option String} {room : Nat} {t t' : Json},
      Json.Adds ServingKey.fieldNames "requiredServingKey" (.ofOption .ofString o) t t' →
      ServingKey.read? (⟨room + 1, t'⟩ : Node) =
        (ServingKey.read? (⟨room + 1, t⟩ : Node)).map (fun k =>
          { k with required := o.getD k.required }) ∧
      ∀ {k : ServingKey}, ServingKey.read? (⟨room + 1, t⟩ : Node) = some k →
        k.required = ServingKey.derivedName k.featureName k.keyPrefix k.ignorePrefix) ∧
    ∀ (k : ServingKey) (room : Nat), ServingKey.read? (⟨room + 1, k.toJson⟩ : Node) = some k :=
  ⟨fun h room => Document.read?_toJson (Document.exists_type_of_read? h) room,
    ⟨fun ⟨_, h⟩ => Document.exists_type_of_read? h, fun h => ⟨_, Document.read?_toJson h 0⟩⟩,
    read?_envelope,
    fun hnull hempty hnullTree hemptyTree => ⟨read?_null hnull hnullTree,
      read?_nil hempty hemptyTree, fun h => select_of_read? hnull hnullTree h⟩,
    fun h => ⟨ServingKey.read?_required h, fun hk => ServingKey.required_of_read? h hk⟩,
    ServingKey.read?_toJson⟩

/-! ### A document with one statement -/

def saleStatement : Json :=
  .record
    [("preparedStatementIndex", .ofNat 0),
     ("preparedStatementParameters", .list
       [.record [("name", .ofString "id"), ("index", .ofNat 1)]]),
     ("queryOnline", .ofString "SELECT amount FROM sales WHERE id = ?")]

/-- An entity of an unknown kind, with a type that has an alias and one that nobody interprets. -/
def saleEntity : Json :=
  .record
    [("kind", .ofString "on_demand"), ("name", .ofString "sales"), ("version", .ofNat 1),
     ("features", .list
       [.record [("name", .ofString "amount"), ("type", .ofString "INTEGER")],
        .record [("name", .ofString "tags"), ("type", .ofString "Array<INT>")]])]

/-- The sets of a document and one more member. -/
def saleSets (more : List (String × Json)) : Json :=
  .record ([("batch", .list [saleStatement])] ++ more)

def saleTree (more : List (String × Json)) : Json :=
  .record ([("entity", saleEntity)] ++ [("statements", saleSets more)])

/-- The count need not be that of the items. -/
def saleEnvelope : List (String × Json) :=
  [("count", .ofNat 3), ("items", .list [saleStatement])]

theorem isEnvelope_sale : IsEnvelope [saleStatement] saleEnvelope where
  count := ⟨.ofNat 3, 3, rfl, Node.uint64?_ofNat 3, by decide⟩
  items := rfl

/-- A key without a name of its own. -/
def saleKey (more : List (String × Json)) : Json :=
  .record ([("featureName", .ofString "id"), ("prefix", .ofString "shop_")] ++ more)

theorem round_trip_sale :
    (∃ d, Document.read? (⟨6, saleTree [("single", .list [saleStatement])]⟩ : Node) = some d ∧
      ∀ room, Document.read? (⟨room + 6, d.toJson⟩ : Node) = some d) ∧
    Document.read? (⟨7, saleTree [("single", .record saleEnvelope)]⟩ : Node) =
      Document.read? (⟨7, saleTree [("single", .list [saleStatement])]⟩ : Node) ∧
    (∃ d, Document.read? (⟨6, saleTree []⟩ : Node) = some d ∧
      Document.read? (⟨6, saleTree [("helper_single", .null)]⟩ : Node) = some d ∧
      d.statements.select false true = none ∧
      Document.read? (⟨6, saleTree [("helper_single", .list [])]⟩ : Node) =
        some { d with statements := d.statements.withHelper false (some []) }) ∧
    ∃ k, ServingKey.read? (⟨1, saleKey []⟩ : Node) = some k ∧ k.required = "shop_id" ∧
      ServingKey.read? (⟨1, k.toJson⟩ : Node) = some k ∧
      ServingKey.read? (⟨1, saleKey [("requiredServingKey", .ofString "sale")]⟩ : Node) =
        some { k with required := "sale" } := by
  obtain ⟨hround, -, henvelope, hhelper, hkey, hagain⟩ := round_trip
  refine ⟨?_, ?_, ?_, ?_⟩
  · have hread : (Document.read?
        (⟨6, saleTree [("single", .list [saleStatement])]⟩ : Node)).isSome = true := by
      decide +kernel
    obtain ⟨d, hd⟩ := Option.isSome_iff_exists.1 hread
    exact ⟨d, hd, hround hd⟩
  · exact henvelope isEnvelope_sale (by decide +kernel) (@Json.Differ.member _ "single" _ _
      [("batch", .list [saleStatement])] [] (by decide)) (.member (by decide))
  · have hread : (Document.read? (⟨6, saleTree []⟩ : Node)).isSome = true := by
      decide +kernel
    obtain ⟨d, hd⟩ := Option.isSome_iff_exists.1 hread
    have hadds (j : Json) : Json.Adds StatementSets.fieldNames (StatementSets.helperName false) j
        (saleSets []) (saleSets [("helper_single", j)]) :=
      .member (by decide) (by decide)
    have hdiffer (more : List (String × Json)) : Json.Differ fieldNames "statements"
        (saleSets more) (saleSets []) (saleTree more) (saleTree []) := .member (by decide)
    obtain ⟨hnull, hnil, hnone⟩ := @hhelper false 3 _ _ _ _ _ _ (hadds .null) (hadds (.list []))
      (hdiffer _) (hdiffer _)
    exact ⟨d, hd, hnull.trans hd, hnone hd, hnil.trans (congrArg _ hd)⟩
  · have hadds : Json.Adds ServingKey.fieldNames "requiredServingKey"
        (.ofOption .ofString (some "sale")) (saleKey [])
        (saleKey [("requiredServingKey", .ofString "sale")]) := .member (by decide) (by decide)
    obtain ⟨hgiven, hderived⟩ := @hkey _ 0 _ _ hadds
    have hread : ServingKey.read? (⟨1, saleKey []⟩ : Node) =
        some ⟨"id", 0, some "shop_", false, "shop_id"⟩ := by
      decide +kernel
    exact ⟨_, hread, (hderived hread).trans (by decide), hagain _ 0,
      hgiven.trans (congrArg _ hread)⟩

end Document

end FeatureServing
