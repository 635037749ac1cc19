import FeatureServing.Assembly
import FeatureServing.Proofs.Fallible
import FeatureServing.Proofs.FiniteMap

/-!
# Rows find their entries by key

`Schema.assembleBatch` goes through the positions and changes the vectors of all entries at each.
Here every vector is told apart:

* `matchingRow?` : the last row of a position whose key texts are those of an entry;
* `stitchedVector` : these rows written over each other, by ascending position;
* `stitch_vectors` : the vectors of a batch are the stitched vectors of its entries;
* `fileRows_perm` : the order of rows with distinct keys does not matter.
-/

namespace FeatureServing

/-! ## Rows under their keys -/

/-- The rows that could be read. -/
def presentRows (rows : RowSet) : List Row :=
  rows.filterMap id

/-- The last row of a position with certain key texts. -/
def lastRow? (x : KeyIndex) (p : Position) (rows : RowSet) (key : KeyTexts) : Option Row :=
  ((presentRows rows).filter fun row => x.rowKey? row p = some key).getLast?

/-- The key texts of the rows of a position, of those that have any. -/
def rowKeys (x : KeyIndex) (p : Position) (rows : RowSet) : List KeyTexts :=
  (presentRows rows).filterMap fun row => x.rowKey? row p

theorem get?_fileRow (x : KeyIndex) (p : Position) (filed : SortedMap KeyTexts Row)
    (r : Option Row) (key : KeyTexts) :
    (fileRow x p filed r).get? key = (lastRow? x p [r] key).or (filed.get? key) := by
  cases r with
  | none => rfl
  | some row =>
    simp only [fileRow, lastRow?, presentRows, List.filterMap_cons_some (f := id) (a := some row) rfl,
      List.filterMap_nil]
    cases hk : x.rowKey? row p with
    | none => simp [hk]
    | some k =>
      rw [SortedMap.get?_insert_eq]
      by_cases h : key = k
      · simp [hk, h]
      · simp [hk, h, Ne.symm h]

theorem lastRow?_cons (x : KeyIndex) (p : Position) (r : Option Row) (rows : RowSet)
    (key : KeyTexts) :
    lastRow? x p (r :: rows) key = (lastRow? x p rows key).or (lastRow? x p [r] key) := by
  have hsplit : presentRows (r :: rows) = presentRows [r] ++ presentRows rows := by
    rw [presentRows, presentRows, presentRows, ← List.filterMap_append, List.singleton_append]
  rw [lastRow?, hsplit, List.filter_append, List.getLast?_append]
  rfl

/-- **The file of a position holds the last row of every key.** -/
theorem get?_fileRows (x : KeyIndex) (p : Position) (rows : RowSet) (key : KeyTexts) :
    (fileRows x p rows).get? key = lastRow? x p rows key := by
  have hfold : ∀ filed : SortedMap KeyTexts Row,
      (rows.foldl (fileRow x p) filed).get? key = (lastRow? x p rows key).or (filed.get? key) := by
    induction rows with
    | nil => intro filed; rfl
    | cons r rest ih =>
      intro filed
      rw [List.foldl_cons, ih, get?_fileRow, lastRow?_cons x p r rest, Option.or_assoc]
  rw [fileRows, hfold, SortedMap.get?_emptyCollection, Option.or_none]

/-! ## The order of the rows -/

theorem rowKeys_count (x : KeyIndex) (p : Position) (rows : RowSet) (key : KeyTexts) :
    (rowKeys x p rows).count key =
      ((presentRows rows).filter fun row => x.rowKey? row p = some key).length := by
  rw [rowKeys, List.count_filterMap, List.countP_eq_length_filter]
  congr 2
  funext row
  rw [Bool.eq_iff_iff, beq_iff_eq, decide_eq_true_iff]

theorem perm_eq_of_length_le_one {α : Type} {l l' : List α} (h : l.Perm l') (hl : l.length ≤ 1) :
    l = l' := by
  match l with
  | [] => exact h.nil_eq
  | [a] => exact (List.singleton_perm.1 h)

theorem lastRow?_perm {x : KeyIndex} {p : Position} {rows rows' : RowSet} (h : rows.Perm rows')
    (hd : (rowKeys x p rows).Nodup) (key : KeyTexts) :
    lastRow? x p rows key = lastRow? x p rows' key := by
  have hperm := (h.filterMap id).filter fun row => x.rowKey? row p = some key
  have hone : ((presentRows rows).filter fun row => x.rowKey? row p = some key).length ≤ 1 := by
    rw [← rowKeys_count]
    exact List.nodup_iff_count.1 hd key
  exact congrArg List.getLast? (perm_eq_of_length_le_one hperm hone)

theorem fileRows_perm {x : KeyIndex} {p : Position} {rows rows' : RowSet} (h : rows.Perm rows')
    (hd : (rowKeys x p rows).Nodup) : fileRows x p rows = fileRows x p rows' :=
  SortedMap.ext_get? fun key => by rw [get?_fileRows, get?_fileRows, lastRow?_perm h hd]

/-! ## The vector of one entry -/

/-- The last row of a position whose key texts are those of an entry. -/
def matchingRow? (x : KeyIndex) (p : Position) (rows : RowSet) (e : Entry) : Option Row :=
  (x.entryKey? e p).bind (lastRow? x p rows)

/-- The rows that results have for a position; a position without results has none. -/
def rowsAt (results : SortedMap Position RowSet) (p : Position) : RowSet :=
  (results.get? p).getD []

/-- The positions of lookups that have serving keys, ascending. -/
def keyedPositions (x : KeyIndex) (lookups : SortedMap Position Lookup) : List Position :=
  lookups.keys.filter fun p => (x.keysAt? p).isSome

/-- The rows that match an entry, one per position at most, by ascending position. -/
def matchingRows (x : KeyIndex) (lookups : SortedMap Position Lookup)
    (results : SortedMap Position RowSet) (e : Entry) : List Row :=
  (keyedPositions x lookups).filterMap fun p => matchingRow? x p (rowsAt results p) e

/-- The rows that match an entry, written over each other. -/
def stitchedVector (x : KeyIndex) (lookups : SortedMap Position Lookup)
    (results : SortedMap Position RowSet) (e : Entry) : FeatureVector :=
  (matchingRows x lookups results e).foldl SortedMap.overlay ∅

/-- What the rows of a position write into the vector of an entry. -/
def writePosition (x : KeyIndex) (results : SortedMap Position RowSet) (e : Entry)
    (v : FeatureVector) (p : Position) : FeatureVector :=
  if (x.keysAt? p).isSome then (matchingRow? x p (rowsAt results p) e).elim v v.overlay else v

theorem stitchedVector_eq_foldl (x : KeyIndex) (lookups : SortedMap Position Lookup)
    (results : SortedMap Position RowSet) (e : Entry) :
    stitchedVector x lookups results e = lookups.keys.foldl (writePosition x results e) ∅ := by
  rw [stitchedVector, matchingRows, keyedPositions, List.foldl_filterMap, List.foldl_filter]
  congr 1
  funext v p
  rw [writePosition]
  split
  · cases matchingRow? x p (rowsAt results p) e <;> rfl
  · rfl

theorem writeMatch_fileRows (x : KeyIndex) (p : Position) (rows : RowSet) (v : FeatureVector)
    (e : Entry) :
    writeMatch x p (fileRows x p rows) v e = (matchingRow? x p rows e).elim v v.overlay := by
  have hfound : (x.entryKey? e p).bind (fileRows x p rows).get? = matchingRow? x p rows e :=
    congrArg (x.entryKey? e p).bind (funext fun key => get?_fileRows x p rows key)
  rw [writeMatch, hfound]
  cases matchingRow? x p rows e <;> rfl

/-! ## The loop over the positions -/

theorem zipWith_zipWith_left {α β : Type} (f g : α → β → α) (as : List α) (bs : List β) :
    List.zipWith g (List.zipWith f as bs) bs = List.zipWith (fun a b => g (f a b) b) as bs := by
  induction as generalizing bs with
  | nil => rfl
  | cons a as ih => cases bs <;> simp [ih]

theorem zipWith_fst {α β : Type} {as : List α} {bs : List β} (h : as.length = bs.length) :
    List.zipWith (fun a _ => a) as bs = as := by
  induction as generalizing bs with
  | nil => rfl
  | cons a as ih =>
    cases bs with
    | nil => simp at h
    | cons b bs => simp [ih (Nat.succ.inj h)]

theorem vectors_stitchPosition (x : KeyIndex) (entries : List Entry)
    (results : SortedMap Position RowSet) (done : BatchVectors) (p : Position)
    (hlen : done.vectors.length = entries.length) :
    (stitchPosition x entries results done p).vectors =
      List.zipWith (fun v e => writePosition x results e v p) done.vectors entries := by
  unfold stitchPosition writePosition
  cases hk : x.keysAt? p with
  | none => exact (zipWith_fst hlen).symm
  | some keys =>
    simp only [Option.isSome_some, if_true]
    congr 1
    funext v e
    exact writeMatch_fileRows x p (rowsAt results p) v e

theorem vectors_foldl_stitchPosition (x : KeyIndex) (entries : List Entry)
    (results : SortedMap Position RowSet) (ps : List Position) (done : BatchVectors)
    (hlen : done.vectors.length = entries.length) :
    (ps.foldl (stitchPosition x entries results) done).vectors =
      List.zipWith (fun v e => ps.foldl (writePosition x results e) v) done.vectors entries := by
  induction ps generalizing done with
  | nil => exact (zipWith_fst hlen).symm
  | cons p ps ih =>
    have hstep := vectors_stitchPosition x entries results done p hlen
    rw [List.foldl_cons, ih _ (by rw [hstep, List.length_zipWith, hlen, Nat.min_self]), hstep,
      zipWith_zipWith_left]
    rfl

/-- **The vectors of a batch are the stitched vectors of its entries.** -/
theorem vectors_stitch (x : KeyIndex) (entries : List Entry) (lookups : SortedMap Position Lookup)
    (results : SortedMap Position RowSet) :
    (stitch x entries lookups results).vectors = entries.map (stitchedVector x lookups results) := by
  rw [stitch, vectors_foldl_stitchPosition _ _ _ _ _ (by rw [List.length_map]),
    List.zipWith_map_left, List.zipWith_self]
  exact List.map_congr_left fun e _ => (stitchedVector_eq_foldl x lookups results e).symm

namespace Schema

theorem data_of_coerce {s : Schema} {v : FeatureVector} {e : ServingError}
    (h : s.coerce v = .error e) : ∃ cause, e = .data cause := by
  obtain ⟨name, value, -, h⟩ := SortedMap.exists_error_of_traverse h
  unfold coerceValue at h
  split at h
  · obtain ⟨c, -, rfl⟩ := mapError_error_iff.1 h
    exact ⟨_, rfl⟩
  · cases h

theorem assembleBatch_ok_iff {s : Schema} {x : KeyIndex} {entries : List Entry}
    {lookups : SortedMap Position Lookup} {results : SortedMap Position RowSet} {b : BatchVectors} :
    s.assembleBatch x entries lookups results = .ok b ↔
      List.Forall₂ (fun e v => s.coerce (stitchedVector x lookups results e) = .ok v) entries
          b.vectors ∧
        b.servingKeys = (stitch x entries lookups results).servingKeys := by
  rw [assembleBatch, bind_ok_iff]
  simp only [mapM_ok_iff, vectors_stitch, List.forall₂_map_left_iff]
  constructor
  · rintro ⟨vectors, hv, h⟩
    obtain rfl := Except.ok.inj h
    exact ⟨hv, rfl⟩
  · rintro ⟨hv, hk⟩
    exact ⟨b.vectors, hv, by rw [← hk]⟩

theorem exists_assembleBatch_ok_iff {s : Schema} {x : KeyIndex} {entries : List Entry}
    {lookups : SortedMap Position Lookup} {results : SortedMap Position RowSet} :
    (∃ b, s.assembleBatch x entries lookups results = .ok b) ↔
      ∀ e ∈ entries, ∃ v, s.coerce (stitchedVector x lookups results e) = .ok v := by
  rw [← exists_mapM_ok_iff]
  simp only [assembleBatch_ok_iff, mapM_ok_iff]
  exact ⟨fun ⟨b, hb, _⟩ => ⟨b.vectors, hb⟩, fun ⟨vs, hvs⟩ => ⟨⟨vs, _⟩, hvs, rfl⟩⟩

/-- The vectors of a batch as a function of its entries. -/
theorem vectors_eq_map {s : Schema} {x : KeyIndex} {entries : List Entry}
    {lookups : SortedMap Position Lookup} {results : SortedMap Position RowSet} {b : BatchVectors}
    (h : s.assembleBatch x entries lookups results = .ok b) :
    b.vectors = entries.map fun e =>
      ((s.coerce (stitchedVector x lookups results e)).toOption).getD ∅ := by
  rw [← List.forall₂_eq_eq_eq, List.forall₂_map_right_iff]
  refine (assembleBatch_ok_iff.1 h).1.flip.imp fun v e (hv : s.coerce _ = .ok v) => ?_
  rw [hv]
  rfl

theorem assembleBatch_perm {s : Schema} {x : KeyIndex} {entries entries' : List Entry}
    {lookups : SortedMap Position Lookup} {results : SortedMap Position RowSet} {b : BatchVectors}
    (h : s.assembleBatch x entries lookups results = .ok b) (hperm : entries'.Perm entries) :
    ∃ b', s.assembleBatch x entries' lookups results = .ok b' ∧
      (entries'.zip b'.vectors).Perm (entries.zip b.vectors) := by
  obtain ⟨b', hb'⟩ : ∃ b', s.assembleBatch x entries' lookups results = .ok b' :=
    exists_assembleBatch_ok_iff.2 fun e he =>
      exists_assembleBatch_ok_iff.1 ⟨b, h⟩ e (hperm.mem_iff.1 he)
  refine ⟨b', hb', ?_⟩
  rw [vectors_eq_map h, vectors_eq_map hb', ← List.map_prod_left_eq_zip,
    ← List.map_prod_left_eq_zip]
  exact hperm.map _

theorem assembleBatch_congr {s : Schema} {x : KeyIndex} {entries : List Entry}
    {lookups : SortedMap Position Lookup} {results results' : SortedMap Position RowSet}
    (h : ∀ p, fileRows x p (rowsAt results' p) = fileRows x p (rowsAt results p)) :
    s.assembleBatch x entries lookups results' = s.assembleBatch x entries lookups results := by
  have hturn : stitchPosition x entries results' = stitchPosition x entries results := by
    funext done p
    have hp : fileRows x p ((results'.get? p).getD []) = fileRows x p ((results.get? p).getD []) :=
      h p
    simp only [stitchPosition, hp]
  simp only [assembleBatch, stitch, hturn]

/-- **Batches are stitched by key.** A batch succeeds when every entry's stitched vector can be
decoded, and then it has one vector per entry, in their order: the decoded one of that entry, which
no other entry has a part in. Permuted entries get the same vectors, permuted. Rows with distinct
keys may come in any order, at any number of positions. -/
theorem assembleBatch_by_key (s : Schema) (x : KeyIndex) (entries : List Entry)
    (lookups : SortedMap Position Lookup) (results : SortedMap Position RowSet) :
    ((∃ b, s.assembleBatch x entries lookups results = .ok b) ↔
      ∀ e ∈ entries, ∃ v, s.coerce (stitchedVector x lookups results e) = .ok v) ∧
    (∀ b, s.assembleBatch x entries lookups results = .ok b →
      b.vectors.length = entries.length ∧
      (∀ (i : Nat) e, entries[i]? = some e → ∃ v, b.vectors[i]? = some v ∧
        s.coerce (stitchedVector x lookups results e) = .ok v) ∧
      (∀ entries' b', s.assembleBatch x entries' lookups results = .ok b' →
        ∀ i j : Nat, entries[i]? = entries'[j]? → b.vectors[i]? = b'.vectors[j]?) ∧
      (∀ entries', entries'.Perm entries →
        ∃ b', s.assembleBatch x entries' lookups results = .ok b' ∧
          (entries'.zip b'.vectors).Perm (entries.zip b.vectors))) ∧
    ∀ results', (∀ p, rowsAt results' p = rowsAt results p ∨
        (rowsAt results' p).Perm (rowsAt results p) ∧ (rowKeys x p (rowsAt results p)).Nodup) →
      s.assembleBatch x entries lookups results' = s.assembleBatch x entries lookups results := by
  refine ⟨exists_assembleBatch_ok_iff, fun b hb => ⟨?_, ?_, ?_, ?_⟩, fun results' h => ?_⟩
  · rw [vectors_eq_map hb, List.length_map]
  · intro i e he
    obtain ⟨v, hv⟩ := exists_assembleBatch_ok_iff.1 ⟨b, hb⟩ e (List.mem_of_getElem? he)
    refine ⟨v, ?_, hv⟩
    rw [vectors_eq_map hb, List.getElem?_map, he, Option.map_some, hv]
    rfl
  · intro entries' b' hb' i j hij
    rw [vectors_eq_map hb, vectors_eq_map hb', List.getElem?_map, List.getElem?_map, hij]
  · exact fun entries' hperm => assembleBatch_perm hb hperm
  · refine assembleBatch_congr fun p => ?_
    rcases h p with hp | ⟨hperm, hd⟩
    · rw [hp]
    · exact (fileRows_perm hperm.symm hd).symm

end Schema

/-! ### A batch of two -/

def saleEntry (id : Int64) : Entry := SortedMap.ofList [("id", .int id)]

def saleRow (id amount : Int64) : Row := SortedMap.ofList [("id", .int id), ("amount", .int amount)]

def saleKeys : KeyIndex where
  keys := .ofList [(0, [.of "id" 0 none true none])]
  prefixes := .ofList [(0, none)]
  validNames := .ofList ["id"]

def saleLookup : Lookup :=
  ⟨0, none, none, .single, [.text "SELECT * FROM sale WHERE id = ", .parameter "id"], ["id"]⟩

def saleLookups : SortedMap Position Lookup :=
  .ofList [(0, ⟨0, none, none, .batch, [.text "SELECT * FROM sale WHERE id IN ",
    .expanding Binds.batchName], [Binds.batchName]⟩)]

namespace Schema

/-- Two entries and their rows, which come the other way round. -/
theorem assembleBatch_by_key_sales :
    ∃ b, (Schema.mk []).assembleBatch saleKeys [saleEntry 1, saleEntry 2] saleLookups
        (.ofList [(0, [some (saleRow 2 20), none, some (saleRow 1 10)])]) = .ok b ∧
      b.vectors = [saleRow 1 10, saleRow 2 20] ∧ b.vectors.length = 2 ∧
      (∃ b', (Schema.mk []).assembleBatch saleKeys [saleEntry 2, saleEntry 1] saleLookups
          (.ofList [(0, [some (saleRow 2 20), none, some (saleRow 1 10)])]) = .ok b' ∧
        ([saleEntry 2, saleEntry 1].zip b'.vectors).Perm
          ([saleEntry 1, saleEntry 2].zip b.vectors)) ∧
      (Schema.mk []).assembleBatch saleKeys [saleEntry 1, saleEntry 2] saleLookups
          (.ofList [(0, [some (saleRow 1 10), some (saleRow 2 20), none])]) = .ok b := by
  obtain ⟨-, hok, hrows⟩ := assembleBatch_by_key ⟨[]⟩ saleKeys [saleEntry 1, saleEntry 2] saleLookups
    (.ofList [(0, [some (saleRow 2 20), none, some (saleRow 1 10)])])
  have hb : (Schema.mk []).assembleBatch saleKeys [saleEntry 1, saleEntry 2] saleLookups
      (.ofList [(0, [some (saleRow 2 20), none, some (saleRow 1 10)])]) =
        .ok ⟨[saleRow 1 10, saleRow 2 20], [.of "id" 0 none true none]⟩ := by rfl
  obtain ⟨hlen, -, -, hperm⟩ := hok _ hb
  refine ⟨_, hb, rfl, hlen, hperm _ (.swap _ _ _), ?_⟩
  rw [hrows _ fun p => ?_, hb]
  by_cases hp : p = 0
  · subst hp
    have hperm : [some (saleRow 1 10), some (saleRow 2 20), none].Perm
        [some (saleRow 2 20), none, some (saleRow 1 10)] :=
      (List.Perm.swap _ _ _).trans (.cons _ (.swap _ _ _))
    exact .inr ⟨hperm, by decide⟩
  · refine .inl ?_
    simp [rowsAt, SortedMap.get?_ofList, SortedMap.find, hp]

end Schema

end FeatureServing
