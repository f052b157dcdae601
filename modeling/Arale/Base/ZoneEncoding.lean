import Mathlib.Data.List.Forall2
import Arale.Base.ZoneFile
import Arale.Lib.ByteOrder

/-!
# Zone files written and read back

A description of a zone, with types for all its transitions and no more of anything than
the counts of a file can say, and the block of version 1 that it is written as. The loader
reads the tables of the description back, whatever the other counts are and whatever
follows the block.
-/

namespace ZoneEncoding

open Arale ByteOrder FileReader Arale.TimeZone

/-- A type: its offset, its DST flag and where its abbreviation begins. -/
structure ZoneType where
  gmtoff : Int32
  isdst : Bool
  abbrind : UInt8
  deriving DecidableEq

structure Zone where
  version : UInt8
  reserved : List UInt8
  reserved_length : reserved.length = 15
  isgmtcnt : Int32
  isstdcnt : Int32
  leapcnt : Int32
  /-- the times of the transitions, with their types -/
  transitions : List (Int32 × UInt8)
  transitions_length : transitions.length < 2147483648
  types : List ZoneType
  types_length : 1 ≤ types.length ∧ types.length ≤ 256
  typed : ∀ transition ∈ transitions, transition.2.toNat < types.length
  abbreviation : List UInt8
  abbreviation_length : abbreviation.length < 2147483648

/-- Four bytes, the most significant first. -/
def int32 (x : Int32) : List UInt8 := digits 4 x.toUInt32.toNat

def count (n : Nat) : List UInt8 := digits 4 n

def ZoneType.bytes (type : ZoneType) : List UInt8 :=
  int32 type.gmtoff ++ [if type.isdst then 1 else 0, type.abbrind]

def ZoneType.localtime (type : ZoneType) : Localtime :=
  ⟨type.gmtoff.toInt, type.isdst, type.abbrind.toNat⟩

namespace Zone
variable (zone : Zone)

def header : List UInt8 :=
  tzif ++ [zone.version] ++ zone.reserved ++ int32 zone.isgmtcnt ++ int32 zone.isstdcnt ++
    int32 zone.leapcnt ++ count zone.transitions.length ++ count zone.types.length ++
    count zone.abbreviation.length

/-- The file of version 1, up to the abbreviations. -/
def encoding : List UInt8 :=
  zone.header ++ zone.transitions.flatMap (fun transition => int32 transition.1) ++
    zone.transitions.flatMap (fun transition => [transition.2]) ++
    zone.types.flatMap ZoneType.bytes ++ zone.abbreviation

/-- The offset of the type of a transition. -/
def offsetOf (transition : Int32 × UInt8) : Int :=
  (zone.types[transition.2.toNat]?).elim 0 fun type => type.gmtoff.toInt

/-- The tables that the description stands for. -/
def data : Data where
  transitions := zone.transitions.map fun transition =>
    ⟨transition.1.toInt, transition.1.toInt + zone.offsetOf transition, transition.2.toNat⟩
  localtimes := zone.types.map ZoneType.localtime
  abbreviation := zone.abbreviation

end Zone

/-! ## The parts of a file -/

theorem be32toh_digits {n : Nat} (small : n < 4294967296) :
    ∃ a b c d, digits 4 n = [a, b, c, d] ∧
      be32toh a b c d = if n < 2147483648 then (n : Int) else n - 4294967296 := by
  refine ⟨_, _, _, _, rfl, ?_⟩
  simp only [be32toh, UInt8.toNat_ofNat']
  have whole : (((n / 256 / 256 / 256 % 2 ^ 8 * 256 + n / 256 / 256 % 2 ^ 8) * 256 +
      n / 256 % 2 ^ 8) * 256 + n % 2 ^ 8) = n := by omega
  rw [whole]

theorem readInt32_digits {n : Nat} (small : n < 4294967296) (rest : List UInt8) (data : Data) :
    readInt32 ⟨digits 4 n ++ rest, data⟩ =
      .ok (if n < 2147483648 then (n : Int) else n - 4294967296) ⟨rest, data⟩ := by
  obtain ⟨a, b, c, d, written, read⟩ := be32toh_digits small
  rw [written, ← read]
  rfl

theorem toInt_eq (x : Int32) :
    x.toInt = if x.toUInt32.toNat < 2147483648 then (x.toUInt32.toNat : Int)
      else x.toUInt32.toNat - 4294967296 := by
  have bits : x.toInt = x.toBitVec.toInt := rfl
  have word : x.toUInt32.toNat = x.toBitVec.toNat := rfl
  rw [bits, word, BitVec.toInt_eq_toNat_cond]
  split <;> split <;> omega

theorem readInt32_decodes : Decodes readInt32 int32 Int32.toInt := by
  intro x rest data
  rw [int32, readInt32_digits x.toUInt32.toNat_lt, ← toInt_eq]

theorem readInt32_count {n : Nat} (small : n < 2147483648) (rest : List UInt8) (data : Data) :
    readInt32 ⟨count n ++ rest, data⟩ = .ok (n : Int) ⟨rest, data⟩ := by
  rw [count, readInt32_digits (by omega), if_pos small]

theorem readUInt8_cons (byte : UInt8) (rest : List UInt8) (data : Data) :
    readUInt8 ⟨byte :: rest, data⟩ = .ok byte.toNat ⟨rest, data⟩ := rfl

theorem readBytes_append (bytes rest : List UInt8) (data : Data) :
    readBytes bytes.length ⟨bytes ++ rest, data⟩ = .ok bytes ⟨rest, data⟩ := by
  rw [readBytes, if_neg (by omega), Int.toNat_natCast]
  exact bytesReader_append bytes rest data

theorem readLocaltimes_step (type : ZoneType) (n : Nat) (rest : List UInt8) (data : Data) :
    readLocaltimes (n + 1) ⟨type.bytes ++ rest, data⟩ =
      readLocaltimes n ⟨rest, { data with
        localtimes := data.localtimes ++ [type.localtime] }⟩ := by
  have flag : (if type.isdst then (1 : UInt8) else 0).toNat ≠ 0 ↔ type.isdst = true := by
    cases type.isdst <;> decide
  have gmtoff := readInt32_decodes type.gmtoff
    ((if type.isdst then 1 else 0) :: type.abbrind :: rest) data
  rw [ZoneType.bytes, List.append_assoc, readLocaltimes]
  simp only [List.cons_append, List.nil_append]
  rw [bind_ok gmtoff, bind_ok (readUInt8_cons _ _ _), bind_ok (readUInt8_cons _ _ _)]
  simp only [flag, Bool.decide_eq_true]
  rfl

theorem readLocaltimes_flatMap (types : List ZoneType) (rest : List UInt8) (data : Data) :
    readLocaltimes types.length ⟨types.flatMap ZoneType.bytes ++ rest, data⟩ =
      .ok () ⟨rest, { data with
        localtimes := data.localtimes ++ types.map ZoneType.localtime }⟩ := by
  induction types generalizing data with
  | nil =>
    rw [List.map_nil, List.append_nil]
    rfl
  | cons type types ih =>
    rw [List.length_cons, List.flatMap_cons, List.append_assoc, readLocaltimes_step, ih]
    simp only [List.append_assoc, List.map_cons, List.singleton_append]

/-! ## The whole file -/

section Whole
variable (zone : Zone) (rest : List UInt8)

/-- The times and the indices, as the loader collects them. -/
def pairs : List (Int × Nat) :=
  zone.transitions.map fun transition => (transition.1.toInt, transition.2.toNat)

theorem zip_pairs : (zone.transitions.map fun transition => transition.1.toInt).zip
    (zone.transitions.map fun transition => transition.2.toNat) = pairs zone := by
  rw [List.zip_map']
  rfl

/-- What is read behind the counts. -/
theorem tables_read : ∀ data : Data,
    (do
      let trans ← repeated readInt32 zone.transitions.length
      let localtimes ← repeated readUInt8 zone.transitions.length
      readLocaltimes zone.types.length
      finish (trans.zip localtimes) zone.abbreviation.length : Load Unit)
      ⟨zone.transitions.flatMap (fun transition => int32 transition.1) ++
        (zone.transitions.flatMap (fun transition => [transition.2]) ++
          (zone.types.flatMap ZoneType.bytes ++ (zone.abbreviation ++ rest))), data⟩ =
      finish (pairs zone) zone.abbreviation.length ⟨zone.abbreviation ++ rest, { data with
        localtimes := data.localtimes ++ zone.types.map ZoneType.localtime }⟩ := by
  intro data
  have times : Decodes readInt32 (fun transition : Int32 × UInt8 => int32 transition.1)
      fun transition => transition.1.toInt := fun transition => readInt32_decodes transition.1
  have indices : Decodes readUInt8 (fun transition : Int32 × UInt8 => [transition.2])
      fun transition => transition.2.toNat := fun transition => readUInt8_cons transition.2
  rw [bind_ok (repeated_decodes times zone.transitions _ data),
    bind_ok (repeated_decodes indices zone.transitions _ data),
    bind_ok (readLocaltimes_flatMap zone.types _ data), zip_pairs]

theorem load_encoding : load ⟨zone.encoding ++ rest, {}⟩ =
    finish (pairs zone) zone.abbreviation.length ⟨zone.abbreviation ++ rest,
      { localtimes := zone.types.map ZoneType.localtime }⟩ := by
  have times_length := zone.transitions_length
  have types_length := zone.types_length
  have head (tail : List UInt8) :
      readBytes 4 ⟨tzif ++ tail, ({} : Data)⟩ = .ok tzif ⟨tail, {}⟩ := readBytes_append tzif tail {}
  have version (tail : List UInt8) : readBytes 1 ⟨[zone.version] ++ tail, ({} : Data)⟩ =
      .ok [zone.version] ⟨tail, {}⟩ := readBytes_append [zone.version] tail {}
  have reserved (tail : List UInt8) : readBytes 15 ⟨zone.reserved ++ tail, ({} : Data)⟩ =
      .ok zone.reserved ⟨tail, {}⟩ := by
    have read := readBytes_append zone.reserved tail {}
    rwa [zone.reserved_length] at read
  have timecnt_nonneg : (0 : Int) ≤ zone.transitions.length := Int.natCast_nonneg _
  simp only [Zone.encoding, Zone.header, List.append_assoc]
  rw [load, bind_ok (head _), bind_ok (require_ok (decide_eq_true rfl) _), bind_ok (version _),
    bind_ok (reserved _), bind_ok (readInt32_decodes zone.isgmtcnt _ _),
    bind_ok (readInt32_decodes zone.isstdcnt _ _), bind_ok (readInt32_decodes zone.leapcnt _ _),
    bind_ok (readInt32_count times_length _ _), bind_ok (readInt32_count (by omega) _ _),
    bind_ok (readInt32_count zone.abbreviation_length _ _),
    bind_ok (require_ok (decide_eq_true timecnt_nonneg) _), Int.toNat_natCast, Int.toNat_natCast]
  exact tables_read zone rest {}

/-- The type of a transition is there. -/
theorem offsetOf_eq {transition : Int32 × UInt8} (member : transition ∈ zone.transitions) :
    ∃ type, zone.types[transition.2.toNat]? = some type ∧
      zone.offsetOf transition = type.gmtoff.toInt := by
  have type := List.getElem?_eq_getElem (zone.typed transition member)
  refine ⟨_, type, ?_⟩
  rw [Zone.offsetOf, type]
  rfl

theorem readTimeZoneFile_encoding :
    readTimeZoneFile (some (zone.encoding ++ rest)) = some (true, zone.data) := by
  have inside : ∀ pair ∈ pairs zone,
      pair.2 < (zone.types.map ZoneType.localtime).length := by
    intro pair member
    obtain ⟨transition, listed, rfl⟩ := List.mem_map.mp member
    rw [List.length_map]
    exact zone.typed transition listed
  have transitions : (pairs zone).map
      (transitionOf { localtimes := zone.types.map ZoneType.localtime }) =
        zone.data.transitions := by
    rw [pairs, List.map_map, Zone.data]
    apply List.map_congr_left
    intro transition listed
    obtain ⟨type, found, offset⟩ := offsetOf_eq zone listed
    simp only [Function.comp_apply, transitionOf, List.getElem?_map, found, offset,
      Option.map_some, Option.elim_some]
    rfl
  have loaded := load_encoding zone rest
  rw [finish, bind_ok (addTransitions_ok inside), bind_ok (readBytes_append _ _ _),
    transitions] at loaded
  rw [readTimeZoneFile]
  simp only [loaded]
  rfl

end Whole

/-- A transition of the tables, against one of the description. -/
structure Matches (zone : Zone) (described : Int32 × UInt8) (transition : Transition) :
    Prop where
  gmttime : transition.gmttime = described.1.toInt
  localtimeIdx : transition.localtimeIdx = described.2.toNat
  localtime : ∃ type, zone.types[described.2.toNat]? = some type ∧
    transition.localtime = described.1.toInt + type.gmtoff.toInt

/-- Reading the encoding of a zone gives its types, its abbreviations and its transitions in
their order, whatever follows the encoding. -/
theorem zone_read_back (zone : Zone) (trailing : List UInt8) :
    ∃ data, readTimeZoneFile (some (zone.encoding ++ trailing)) = some (true, data) ∧
      data.localtimes = zone.types.map ZoneType.localtime ∧
      data.abbreviation = zone.abbreviation ∧
      List.Forall₂ (Matches zone) zone.transitions data.transitions := by
  refine ⟨zone.data, readTimeZoneFile_encoding zone trailing, rfl, rfl, ?_⟩
  rw [Zone.data, List.forall₂_map_right_iff, List.forall₂_same]
  intro transition listed
  obtain ⟨type, found, offset⟩ := offsetOf_eq zone listed
  exact ⟨rfl, rfl, type, found, by rw [offset]⟩

end ZoneEncoding
