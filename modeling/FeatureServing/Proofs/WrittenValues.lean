import FeatureServing.Proofs.RecordReading

/-!
# Values that are read as they are written

* `Json.Node.number?_ofNat`, `Json.Node.number?_ofInt_of_neg` : the digits of a number give it back;
* `Json.Node.uint64?_ofNat`, `Json.Node.uint32?_ofNat`, `Json.Node.signed?_ofInt` : words;
* `Json.Node.list?_list`, `Json.Node.list?_ofList` : lists, item by item;
* `Json.Node.list?_room` : a list is read alike wherever its items are;
* `Fields.nullable_ofOption`, `Fields.nullable_signed`, `Fields.nullable_text` : values that may be
  absent.
-/

namespace FeatureServing

namespace Json.Node

open Readable

variable {room : Nat} {α : Type}

/-! ## Written numbers -/

theorem number?_ofNat {n : Nat} (h : n < Word.capacity 64) :
    number? ⟨room, .ofNat n⟩ = some (.unsigned n) := by
  have hbound : n ≤ Numeral.collectBound := Nat.le_sub_one_of_lt h
  have hsign : ¬ (n : Int) < 0 := Int.not_lt.2 (Int.natCast_nonneg n)
  simp only [number?, Json.ofNat, Json.ofInt, Numeral.ofInt, Numeral.number?, Numeral.isIntegral,
    Int.natAbs_natCast, Text.numberOf_decimalDigits, hbound, hsign, decide_true, decide_false,
    List.isEmpty_nil, Option.isNone_none, Bool.and_self, Bool.not_false, if_true]

theorem number?_ofInt_of_neg {i : Int} (hsign : i < 0) (hlow : -(Word.capacity 63 : Int) ≤ i) :
    number? ⟨room, .ofInt i⟩ = some (.negative i) := by
  have hbound : i.natAbs ≤ Word.capacity 63 := by omega
  have hpos : 0 < i.natAbs := by omega
  have hvalue : -(i.natAbs : Int) = i := by omega
  simp only [number?, Json.ofInt, Numeral.ofInt, Numeral.number?, Numeral.isIntegral,
    Text.numberOf_decimalDigits, hsign, hbound, hpos, hvalue, decide_true, List.isEmpty_nil,
    Option.isNone_none, Bool.and_self, Bool.not_true, Bool.and_false, Bool.false_eq_true, if_false,
    if_true]

theorem unsigned?_ofNat {width n : Nat} (h : n < Word.capacity width) (hwidth : width ≤ 64) :
    Node.unsigned? width ⟨room, .ofNat n⟩ = some n := by
  have hbound : n < Word.capacity 64 :=
    Nat.lt_of_lt_of_le h (Nat.pow_le_pow_right (by decide) hwidth)
  have hword : Word.unsigned? width n = some n := by
    rw [Word.unsigned?, if_pos ⟨Int.natCast_nonneg n, Int.ofNat_lt.2 h⟩, Int.toNat_natCast]
  rw [unsigned?, number?_ofNat hbound]
  exact hword

@[simp] theorem uint64?_ofNat (w : UInt64) :
    uint64? (⟨room, .ofNat w.toNat⟩ : Node) = some w := by
  have h := @unsigned?_ofNat room 64 w.toNat w.toNat_lt (Nat.le_refl 64)
  exact (congrArg (Option.map UInt64.ofNat) h).trans (congrArg some UInt64.ofNat_toNat)

@[simp] theorem uint32?_ofNat (w : UInt32) :
    uint32? (⟨room, .ofNat w.toNat⟩ : Node) = some w := by
  have h := @unsigned?_ofNat room 32 w.toNat w.toNat_lt (by decide)
  exact (congrArg (Option.map UInt32.ofNat) h).trans (congrArg some UInt32.ofNat_toNat)

@[simp] theorem signed?_ofInt (w : Int64) :
    Readable.signed? (⟨room, .ofInt w.toInt⟩ : Node) = some w := by
  have hcapacity : Word.capacity 63 = 2 ^ 63 := rfl
  have hlow : -(Word.capacity 63 : Int) ≤ w.toInt := by
    rw [hcapacity]
    exact w.le_toInt
  have hhigh : w.toInt < Word.capacity 63 := by
    rw [hcapacity]
    exact w.toInt_lt
  have hword : Word.int64? w.toInt = some w := by
    rw [Word.int64?, if_pos, Int64.ofInt_toInt]
    exact Bool.and_eq_true_iff.2 ⟨decide_eq_true hlow, decide_eq_true hhigh⟩
  change Node.signed? _ = _
  by_cases hsign : w.toInt < 0
  · rw [signed?, number?_ofInt_of_neg hsign hlow]
    exact hword
  · obtain ⟨n, hn⟩ := Int.eq_ofNat_of_zero_le (Int.not_lt.1 hsign)
    have hbound : n < Word.capacity 64 :=
      Nat.lt_trans (Int.ofNat_lt.1 (hn ▸ hhigh)) (by decide)
    have hnumber : number? ⟨room, .ofInt n⟩ = some (.unsigned n) := number?_ofNat hbound
    rw [hn] at hword ⊢
    rw [signed?, hnumber]
    exact hword

/-! ## Written texts and lists -/

@[simp] theorem text?_ofString (t : String) :
    Readable.text? (⟨room, .ofString t⟩ : Node) = some t := rfl

@[simp] theorem flag?_bool (b : Bool) : Readable.flag? (⟨room, .bool b⟩ : Node) = some b := rfl

theorem list?_list (read : Node → Option α) (room : Nat) (items : List Json) :
    list? read (⟨room + 1, .list items⟩ : Node) = items.mapM fun j => read ⟨room, j⟩ := by
  have hitems : Readable.items? (⟨room + 1, .list items⟩ : Node) =
      some (items.map fun j => ⟨room, j⟩) := rfl
  rw [list?, hitems, Option.bind_some, List.mapM_map]
  rfl

theorem list?_room {read : Node → Option α} {room room' : Nat}
    (h : ∀ j, read ⟨room, j⟩ = read ⟨room', j⟩) (j : Json) :
    list? read (⟨room + 1, j⟩ : Node) = list? read (⟨room' + 1, j⟩ : Node) := by
  cases j with
  | list items =>
    rw [list?_list, list?_list]
    exact congrArg (fun f => items.mapM f) (funext h)
  | _ => rfl

theorem list?_ofList {read : Node → Option α} {write : α → Json} {as : List α}
    (h : ∀ a ∈ as, read ⟨room, write a⟩ = some a) :
    list? read (⟨room + 1, .ofList write as⟩ : Node) = some as := by
  rw [Json.ofList, list?_list, List.mapM_map, mapM_some_iff]
  exact List.forall₂_same.2 h

end Json.Node

namespace Fields

variable {α : Type} {room : Nat} {fs : Fields Json} {name : String}

theorem nullable_ofOption {read : Json → Option α} {write : α → Json} {o : Option α}
    (h : fs.lookup name = some (.ofOption write o))
    (hwrite : ∀ a ∈ o, (write a).isNull = false ∧ read (write a) = some a) :
    fs.nullable name read = some o := by
  rw [nullable, h]
  cases o with
  | none => rfl
  | some a =>
    obtain ⟨hnull, hread⟩ := hwrite a rfl
    simp only [Json.ofOption, hnull, Bool.false_eq_true, if_false, hread, Option.map_some]

theorem nullable_signed {o : Option Int64}
    (h : fs.lookup name = some (.ofOption (fun g => .ofInt g.toInt) o)) :
    fs.nullable name (fun j => Readable.signed? (⟨room, j⟩ : Json.Node)) = some o :=
  nullable_ofOption h fun g _ => ⟨rfl, Json.Node.signed?_ofInt g⟩

theorem nullable_text {o : Option String} (h : fs.lookup name = some (.ofOption .ofString o)) :
    fs.nullable name (fun j => Readable.text? (⟨room, j⟩ : Json.Node)) = some o :=
  nullable_ofOption h fun _ _ => ⟨rfl, rfl⟩

end Fields

end FeatureServing
