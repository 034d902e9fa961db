import LorahamRns.Sideband.Replaced

/-!
# A part of msgpack

Maps of fewer than 16 items whose keys and values are short ASCII strings or booleans, as
msgpack lays them out; everything else raises.  It keeps what the serialiser documents, so
the script can be run with it.
-/

namespace LorahamRns.Sideband

open LorahamRns.Lib

inductive Plain where
  | bool (value : Bool)
  | text (value : Text)
  deriving DecidableEq

namespace Plain

/-! ## Packing -/

/-- `fixstr`: up to 31 bytes. -/
def Short (value : Text) : Prop := value.length < 32 ∧ ∀ char ∈ value, char.toNat < 128

instance (value : Text) : Decidable (Short value) :=
  @instDecidableAnd _ _ inferInstance (List.decidableBAll _ _)

def pack : Plain → Option Bytes
  | .bool value => some [if value then 0xC3 else 0xC2]
  | .text value =>
      if Short value then
        some (UInt8.ofNat (0xA0 + value.length) :: value.map fun char => UInt8.ofNat char.toNat)
      else none

def packItems : Dict Plain → Option Bytes
  | [] => some []
  | (key, value) :: rest => do
      let front ← key.pack
      let back ← value.pack
      let more ← packItems rest
      pure (front ++ back ++ more)

/-- `fixmap`: up to 15 items. -/
def packb (dict : Dict Plain) : Option Bytes :=
  if dict.length < 16 then
    (packItems dict).map (UInt8.ofNat (0x80 + dict.length) :: ·)
  else none

/-! ## Unpacking -/

def unpack : Bytes → Option (Plain × Bytes)
  | [] => none
  | head :: rest =>
      if head = 0xC3 then some (.bool true, rest)
      else if head = 0xC2 then some (.bool false, rest)
      else if 0xA0 ≤ head.toNat ∧ head.toNat < 0xC0 then
        let length := head.toNat - 0xA0
        if rest.length < length then none
        else
          some (.text ((rest.take length).map fun byte => Char.ofNat byte.toNat), rest.drop length)
      else none

def unpackItems : ℕ → Bytes → Option (Dict Plain × Bytes)
  | 0, bytes => some ([], bytes)
  | count + 1, bytes => do
      let (key, bytes) ← unpack bytes
      let (value, bytes) ← unpack bytes
      let (rest, bytes) ← unpackItems count bytes
      pure ((key, value) :: rest, bytes)

def unpackb : Bytes → Option (Unpacked Plain)
  | [] => none
  | head :: rest =>
      if 0x80 ≤ head.toNat ∧ head.toNat < 0x90 then
        (unpackItems (head.toNat - 0x80) rest).map fun found => .dict found.1
      else (unpack (head :: rest)).map fun _ => .other

/-! ## What is documented -/

theorem unpack_pack {value : Plain} {bytes : Bytes} (packed : value.pack = some bytes)
    (rest : Bytes) : unpack (bytes ++ rest) = some (value, rest) := by
  cases value with
  | bool value =>
      obtain rfl := Option.some_inj.mp packed
      cases value <;> rfl
  | text value =>
      rw [pack] at packed
      split at packed
      case isFalse => cases packed
      case isTrue short =>
        obtain rfl := Option.some_inj.mp packed
        obtain ⟨length, ascii⟩ := short
        have head : (UInt8.ofNat (0xA0 + value.length)).toNat = 0xA0 + value.length := by
          rw [UInt8.toNat_ofNat', Nat.mod_eq_of_lt (by omega)]
        have small : 0xA0 + value.length < 0xC0 := by omega
        have apart (byte : UInt8) (large : 0xC0 ≤ byte.toNat) :
            UInt8.ofNat (0xA0 + value.length) ≠ byte := by
          intro same
          rw [← same, head] at large
          omega
        have chars : (value.map fun char => UInt8.ofNat char.toNat).map
            (fun byte => Char.ofNat byte.toNat) = value := by
          rw [List.map_map]
          refine (List.map_congr_left fun char found => ?_).trans (List.map_id value)
          have := ascii char found
          simp only [Function.comp_apply, id]
          rw [UInt8.toNat_ofNat', Nat.mod_eq_of_lt (by omega), Char.ofNat_toNat]
        rw [List.cons_append, unpack, if_neg (apart _ (by decide)), if_neg (apart _ (by decide)),
          head, if_pos ⟨Nat.le_add_right _ _, small⟩]
        have taken : 0xA0 + value.length - 0xA0 =
            (value.map fun char => UInt8.ofNat char.toNat).length := by
          rw [List.length_map]
          omega
        dsimp only
        rw [taken, if_neg (by rw [List.length_append]; omega), List.take_left, List.drop_left, chars]

theorem unpackItems_packItems {dict : Dict Plain} {bytes : Bytes}
    (packed : packItems dict = some bytes) (rest : Bytes) :
    unpackItems dict.length (bytes ++ rest) = some (dict, rest) := by
  induction dict generalizing bytes with
  | nil =>
      obtain rfl := Option.some_inj.mp packed
      rfl
  | cons item dict ih =>
      obtain ⟨key, value⟩ := item
      simp only [packItems, Option.bind_eq_bind, Option.bind_eq_some_iff, Option.pure_def,
        Option.some_inj] at packed
      obtain ⟨front, keyed, back, valued, more, items, rfl⟩ := packed
      simp only [List.length_cons, unpackItems, List.append_assoc, unpack_pack keyed,
        unpack_pack valued, ih items, Option.bind_eq_bind, Option.bind_some, Option.pure_def]

/-- What unpacks goes on unpacking with more data behind it. -/
theorem unpack_append {bytes rest : Bytes} {value : Plain} (h : unpack bytes = some (value, rest))
    (more : Bytes) : unpack (bytes ++ more) = some (value, rest ++ more) := by
  cases bytes with
  | nil => cases h
  | cons head tail =>
      rw [List.cons_append]
      rw [unpack] at h ⊢
      by_cases yes : head = 0xC3
      · rw [if_pos yes] at h ⊢
        obtain ⟨rfl, rfl⟩ := Prod.mk.inj (Option.some_inj.mp h)
        rfl
      rw [if_neg yes] at h ⊢
      by_cases no : head = 0xC2
      · rw [if_pos no] at h ⊢
        obtain ⟨rfl, rfl⟩ := Prod.mk.inj (Option.some_inj.mp h)
        rfl
      rw [if_neg no] at h ⊢
      by_cases string : 0xA0 ≤ head.toNat ∧ head.toNat < 0xC0
      · rw [if_pos string] at h ⊢
        dsimp only at h ⊢
        by_cases short : tail.length < head.toNat - 0xA0
        · rw [if_pos short] at h
          cases h
        · rw [if_neg short] at h
          have long := not_lt.mp short
          obtain ⟨rfl, rfl⟩ := Prod.mk.inj (Option.some_inj.mp h)
          rw [if_neg (by rw [List.length_append]; omega), List.take_append_of_le_length long,
            List.drop_append_of_le_length long]
      · rw [if_neg string] at h
        cases h

theorem unpackItems_append {count : ℕ} {bytes rest : Bytes} {dict : Dict Plain}
    (h : unpackItems count bytes = some (dict, rest)) (more : Bytes) :
    unpackItems count (bytes ++ more) = some (dict, rest ++ more) := by
  induction count generalizing bytes dict with
  | zero =>
      obtain ⟨rfl, rfl⟩ := Prod.mk.inj (Option.some_inj.mp h)
      rfl
  | succ count ih =>
      simp only [unpackItems, Option.bind_eq_bind, Option.bind_eq_some_iff, Option.pure_def,
        Option.some_inj, Prod.exists, Prod.mk.injEq] at h
      obtain ⟨key, tail, keyed, value, tail', valued, items, last, found, rfl, rfl⟩ := h
      simp only [unpackItems, unpack_append keyed, unpack_append valued, ih found,
        Option.bind_eq_bind, Option.bind_some, Option.pure_def]

/-- The serialiser restricted to these maps. -/
def codec : Codec Plain := ⟨.text, .bool, packb, unpackb⟩

theorem codec_unpackb : codec.unpackb = unpackb := rfl

/-- The head of a packed map, and its items. -/
theorem packb_eq {dict : Dict Plain} {blob : Bytes} (packed : packb dict = some blob) :
    ∃ items, blob = UInt8.ofNat (0x80 + dict.length) :: items ∧ packItems dict = some items ∧
      (UInt8.ofNat (0x80 + dict.length)).toNat = 0x80 + dict.length ∧ dict.length < 16 := by
  unfold packb at packed
  split at packed
  case isFalse => cases packed
  case isTrue few =>
    obtain ⟨items, found, rfl⟩ := Option.map_eq_some_iff.mp packed
    refine ⟨items, rfl, found, ?_, few⟩
    rw [UInt8.toNat_ofNat', Nat.mod_eq_of_lt (by omega)]

theorem codec_documented : codec.Documented where
  text_injective _ _ same := Plain.text.inj same
  roundTrip dict blob packed := by
    obtain ⟨items, rfl, found, head, few⟩ := packb_eq packed
    have unpacked := unpackItems_packItems found []
    rw [codec_unpackb, unpackb, if_pos (by omega), head, Nat.add_sub_cancel_left]
    rw [List.append_nil] at unpacked
    rw [unpacked]
    rfl
  insufficient dict blob count packed short := by
    obtain ⟨items, rfl, found, head, few⟩ := packb_eq packed
    cases count with
    | zero => rfl
    | succ count =>
        rw [List.take_succ_cons, codec_unpackb, unpackb, if_pos (by omega), head, Nat.add_sub_cancel_left,
          Option.map_eq_none_iff]
        by_contra some'
        obtain ⟨⟨dict', rest⟩, cut⟩ := Option.ne_none_iff_exists'.mp some'
        have longer := unpackItems_append cut (items.drop count)
        have whole := unpackItems_packItems found []
        rw [List.append_nil] at whole
        rw [List.take_append_drop, whole] at longer
        obtain ⟨_, none⟩ := Prod.mk.inj (Option.some_inj.mp longer)
        have empty := (List.append_eq_nil_iff.mp none.symm).2
        rw [List.drop_eq_nil_iff] at empty
        rw [List.length_cons] at short
        omega

/-! ## Two runs -/

/-- A configuration with one other key. -/
def display : Dict Plain := [(.text "display_name".toList, .text "box".toList)]

def displayBlob : Bytes := (packb display).getD []

theorem display_unpacks : codec.unpackb displayBlob = some (.dict display) := by decide +kernel

def disk : Disk := ⟨some displayBlob, none, false⟩

/-- Every call succeeds, and the write takes `count` bytes. -/
def smooth (count : ℕ) : Outcomes where
  makeConfigDir := true
  makePluginsDir := true
  isfile := true
  readConfig := true
  stat := some 0o600
  openTemp := true
  write := some count
  fsync := true
  close := true
  chmod := true
  replace := true
  openDirectory := true
  fsyncDirectory := true
  closeDirectory := true
  unlink := true

def argv : List Text := ["enable".toList, "/cfg".toList, "/plugins".toList]

/-- A short write: the script reports success and leaves a file that does not unpack. -/
theorem short_write_is_renamed :
    ((main codec argv).execute (smooth 10).answers disk).1 = .ok 0 ∧
      ¬Safe codec display "/plugins".toList displayBlob
        ((main codec argv).execute (smooth 10).answers disk) := by
  have run : (main codec argv).execute (smooth 10).answers disk =
      (.ok 0, ⟨some (((packb (updated codec display "/plugins".toList)).getD []).take 10), none,
        true⟩) := by decide +kernel
  rw [run]
  refine ⟨rfl, fun safe => ?_⟩
  obtain ⟨blob, config, placed, unpacked, _⟩ := safe.success rfl
  obtain rfl := Option.some_inj.mp placed
  have cut : codec.unpackb (((packb (updated codec display "/plugins".toList)).getD []).take 10) =
      none := by decide +kernel
  rw [cut] at unpacked
  cases unpacked

/-- A write that takes everything. -/
theorem whole_write_is_safe :
    Safe codec display "/plugins".toList displayBlob
      ((main codec argv).execute (smooth 1000).answers disk) := by
  refine (main_safe_iff codec_documented rfl display_unpacks).mpr ?_
  intro _ blob count packed written
  obtain rfl := Option.some_inj.mp written
  have small : (packb (updated codec display "/plugins".toList)).all
      (·.length ≤ 1000) = true := by decide +kernel
  refine ⟨?_, Or.inl rfl⟩
  change packb (updated codec display "/plugins".toList) = some blob at packed
  rw [packed] at small
  simpa using small

end Plain

end LorahamRns.Sideband
