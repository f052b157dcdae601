import Arale.Base.TimeZone
import Arale.Lib.FileReader

/-!
# Zone files

`readTimeZoneFile` of `base/TimeZone.cc` and the `TimeZone` built from its result. A file is
its bytes, or `none` where it cannot be opened; memory suffices. What a throw leaves in the
tables stays there, and the handler's `return true` makes a `TimeZone` of it.
-/

namespace Arale

/-- `boost::shared_ptr<Data> data_`, null in an invalid one. -/
structure TimeZone where
  data_ : Option TimeZone.Data
  deriving DecidableEq, Repr

namespace TimeZone

open FileReader

def valid (zone : TimeZone) : Bool := zone.data_.isSome

abbrev Load (α : Type) := Reader Data α

/-- `be32toh`, converted to `int32_t`. -/
def be32toh (a b c d : UInt8) : Int :=
  let x := ((a.toNat * 256 + b.toNat) * 256 + c.toNat) * 256 + d.toNat
  if x < 2147483648 then x else x - 4294967296

/-- A negative `n` is no size of an array. -/
def readBytes (n : Int) : Load (List UInt8) := if n < 0 then throw .wild else bytesReader n.toNat

def readInt32 : Load Int := fun s =>
  match s.rest with
  | a :: b :: c :: d :: rest => .ok (be32toh a b c d) { s with rest := rest }
  | _ => .error .thrown { s with rest := [] }

def readUInt8 : Load Nat := fun s =>
  match s.rest with
  | a :: rest => .ok a.toNat { s with rest := rest }
  | [] => .error .thrown s

def pushLocaltime (type : Localtime) : Load Unit := modify fun s =>
  { s with store := { s.store with localtimes := s.store.localtimes ++ [type] } }

def pushTransition (transition : Transition) : Load Unit := modify fun s =>
  { s with store := { s.store with transitions := s.store.transitions ++ [transition] } }

/-- The loop over `typecnt`. -/
def readLocaltimes : Nat → Load Unit
  | 0 => pure ()
  | n + 1 => do
    let gmtoff ← readInt32
    let isdst ← readUInt8
    let abbrind ← readUInt8
    pushLocaltime ⟨gmtoff, isdst ≠ 0, abbrind⟩
    readLocaltimes n

/-- The loop over the times read, each with the index read for it. -/
def addTransitions : List (Int × Nat) → Load Unit
  | [] => pure ()
  | (time, localIdx) :: rest => do
    let s ← get
    match s.store.localtimes[localIdx]? with
    | none => throw .wild
    | some type =>
      pushTransition ⟨time, time + type.gmtOffset, localIdx⟩
      addTransitions rest

def tzif : List UInt8 := "TZif".toList.map fun c => c.toNat.toUInt8

/-- The `try` block. The tables after the abbreviations are left unread. -/
def load : Load Unit := do
  let head ← readBytes 4
  require (head = tzif)
  let _version ← readBytes 1
  let _reserved ← readBytes 15
  let _isgmtcnt ← readInt32
  let _isstdcnt ← readInt32
  let _leapcnt ← readInt32
  let timecnt ← readInt32
  let typecnt ← readInt32
  let charcnt ← readInt32
  -- `reserve` of a negative count throws a `length_error`, which is a `logic_error`
  require (0 ≤ timecnt)
  let trans ← repeated readInt32 timecnt.toNat
  let localtimes ← repeated readUInt8 timecnt.toNat
  readLocaltimes typecnt.toNat
  addTransitions (trans.zip localtimes)
  let abbreviation ← readBytes charcnt
  modify fun s => { s with store := { s.store with abbreviation := abbreviation } }

/-- The result and what is in `*data` then; `none` after an access out of bounds. -/
def readTimeZoneFile (zonefile : Option (List UInt8)) : Option (Bool × Data) :=
  match zonefile with
  | none => some (true, {})
  | some bytes =>
    match load ⟨bytes, {}⟩ with
    | .ok _ s => some (true, s.store)
    | .error .thrown s => some (true, s.store)
    | .error .wild _ => none

/-- `TimeZone(zonefile)`. -/
def ofFile (zonefile : Option (List UInt8)) : Option TimeZone :=
  (readTimeZoneFile zonefile).map fun (read, data) => ⟨if read then some data else none⟩

/-! ## The block of version 1 -/

section Block
variable (bytes : List UInt8)

def byteAt (k : Nat) : UInt8 := bytes.getD k 0

def int32At (k : Nat) : Int :=
  be32toh (byteAt bytes k) (byteAt bytes (k + 1)) (byteAt bytes (k + 2)) (byteAt bytes (k + 3))

def timecnt : Int := int32At bytes 32

def typecnt : Int := int32At bytes 36

def charcnt : Int := int32At bytes 40

/-- Where the types begin, after the header, the times and their indices. -/
def typesBegin : Nat := 44 + 5 * (timecnt bytes).toNat

def charsBegin : Nat := typesBegin bytes + 6 * (typecnt bytes).toNat

def blockEnd : Nat := charsBegin bytes + (charcnt bytes).toNat

def times : List Int :=
  (List.range (timecnt bytes).toNat).map fun i => int32At bytes (44 + 4 * i)

def typeIndices : List Nat :=
  (List.range (timecnt bytes).toNat).map fun i =>
    (byteAt bytes (44 + 4 * (timecnt bytes).toNat + 1 * i)).toNat

def typeAt (k : Nat) : Localtime :=
  ⟨int32At bytes k, (byteAt bytes (k + 4)).toNat ≠ 0, (byteAt bytes (k + 5)).toNat⟩

def types : List Localtime :=
  (List.range (typecnt bytes).toNat).map fun i => typeAt bytes (typesBegin bytes + 6 * i)

/-- The tables that the block describes. -/
def blockData : Data where
  transitions := ((times bytes).zip (typeIndices bytes)).map fun (time, localIdx) =>
    ⟨time, time + ((types bytes)[localIdx]?.elim 0 (·.gmtOffset)), localIdx⟩
  localtimes := types bytes
  abbreviation := (bytes.drop (charsBegin bytes)).take (charcnt bytes).toNat

/-- The file holds the whole block, up to the abbreviations. -/
structure Whole : Prop where
  magic : bytes.take 4 = tzif
  counts : 0 ≤ timecnt bytes ∧ 0 ≤ typecnt bytes ∧ 0 ≤ charcnt bytes
  fits : blockEnd bytes ≤ bytes.length

end Block

/-! ## Loading it -/

section Loading
variable {bytes : List UInt8}

theorem drop_eq_byteAt {k : Nat} (inside : k < bytes.length) :
    bytes.drop k = byteAt bytes k :: bytes.drop (k + 1) := by
  rw [List.drop_eq_getElem_cons inside, byteAt, List.getD_eq_getElem?_getD,
    List.getElem?_eq_getElem inside, Option.getD_some]

theorem readInt32_reads (bytes : List UInt8) : Reads readInt32 bytes 4 (int32At bytes) := by
  intro k store fits
  rw [drop_eq_byteAt (show k < bytes.length by omega),
    drop_eq_byteAt (show k + 1 < bytes.length by omega),
    drop_eq_byteAt (show k + 2 < bytes.length by omega),
    drop_eq_byteAt (show k + 3 < bytes.length by omega)]
  rfl

theorem readUInt8_reads (bytes : List UInt8) :
    Reads readUInt8 bytes 1 fun k => (byteAt bytes k).toNat := by
  intro k store fits
  rw [drop_eq_byteAt (show k < bytes.length by omega)]
  rfl

theorem readBytes_reads (bytes : List UInt8) {n : Int} (sign : 0 ≤ n) :
    Reads (readBytes n) bytes n.toNat fun k => (bytes.drop k).take n.toNat := by
  rw [readBytes, if_neg (by omega)]
  exact bytesReader_reads bytes n.toNat

theorem readLocaltimes_ok (bytes : List UInt8) (n k : Nat) (data : Data)
    (fits : k + 6 * n ≤ bytes.length) : readLocaltimes n ⟨bytes.drop k, data⟩ =
      .ok () ⟨bytes.drop (k + 6 * n), { data with
        localtimes := data.localtimes ++
          (List.range n).map fun i => typeAt bytes (k + 6 * i) }⟩ := by
  induction n generalizing k data with
  | zero =>
    rw [List.range_zero, List.map_nil, List.append_nil]
    rfl
  | succ n ih =>
    have gmtoff := readInt32_reads bytes k data (by omega)
    have isdst := readUInt8_reads bytes (k + 4) data (by omega)
    have abbrind := readUInt8_reads bytes (k + 5) data (by omega)
    have pushed : ∀ type, pushLocaltime type ⟨bytes.drop (k + 6), data⟩ =
      .ok () ⟨bytes.drop (k + 6), { data with localtimes := data.localtimes ++ [type] }⟩ :=
        fun type => rfl
    rw [readLocaltimes, bind_ok gmtoff, bind_ok isdst, bind_ok abbrind, bind_ok (pushed _),
      ih (k + 6) _ (by omega)]
    have shifted : ∀ i, k + 6 + 6 * i = k + 6 * (i + 1) := by
      intro i
      omega
    simp only [shifted, List.range_succ_eq_map, List.map_cons, List.map_map, List.append_assoc,
      List.singleton_append]
    rfl

/-- The transition that a time and an index make in these tables. -/
def transitionOf (data : Data) (pair : Int × Nat) : Transition :=
  ⟨pair.1, pair.1 + data.localtimes[pair.2]?.elim 0 (·.gmtOffset), pair.2⟩

theorem addTransitions_step {time : Int} {localIdx : Nat} {pairs : List (Int × Nat)}
    {rest : List UInt8} {data : Data} (inside : localIdx < data.localtimes.length) :
    addTransitions ((time, localIdx) :: pairs) ⟨rest, data⟩ =
      addTransitions pairs ⟨rest, { data with
        transitions := data.transitions ++ [transitionOf data (time, localIdx)] }⟩ := by
  have type := List.getElem?_eq_getElem inside
  have tables : (get : Load (Reading Data)) ⟨rest, data⟩ = .ok ⟨rest, data⟩ ⟨rest, data⟩ := rfl
  rw [addTransitions, bind_ok tables]
  simp only [transitionOf, type, Option.elim_some]
  rfl

theorem addTransitions_ok {pairs : List (Int × Nat)} {rest : List UInt8} {data : Data}
    (inside : ∀ pair ∈ pairs, pair.2 < data.localtimes.length) :
    addTransitions pairs ⟨rest, data⟩ = .ok () ⟨rest, { data with
      transitions := data.transitions ++ pairs.map (transitionOf data) }⟩ := by
  induction pairs generalizing data with
  | nil =>
    rw [List.map_nil, List.append_nil]
    rfl
  | cons pair pairs ih =>
    have first := inside pair (List.mem_cons_self ..)
    rw [addTransitions_step first, ih]
    · simp only [List.map_cons, List.append_assoc, List.singleton_append]
      rfl
    · intro other member
      exact inside other (.tail _ member)

theorem addTransitions_wild {pairs : List (Int × Nat)} (rest : List UInt8) (data : Data)
    (outside : ∃ pair ∈ pairs, ¬ pair.2 < data.localtimes.length) :
    ∃ s, addTransitions pairs ⟨rest, data⟩ = .error .wild s := by
  induction pairs generalizing data with
  | nil =>
    obtain ⟨pair, member, -⟩ := outside
    cases member
  | cons pair pairs ih =>
    by_cases first : pair.2 < data.localtimes.length
    · rw [addTransitions_step first]
      apply ih
      obtain ⟨other, member, far⟩ := outside
      rcases List.mem_cons.mp member with rfl | later
      · exact absurd first far
      · exact ⟨other, later, far⟩
    · refine ⟨⟨rest, data⟩, ?_⟩
      have tables : (get : Load (Reading Data)) ⟨rest, data⟩ = .ok ⟨rest, data⟩ ⟨rest, data⟩ :=
        rfl
      rw [addTransitions, bind_ok tables]
      simp only [List.getElem?_eq_none (Nat.not_lt.mp first)]
      rfl

/-- The tail of the `try` block. -/
def finish (pairs : List (Int × Nat)) (charcnt : Int) : Load Unit := do
  addTransitions pairs
  let abbreviation ← readBytes charcnt
  modify fun s => { s with store := { s.store with abbreviation := abbreviation } }

/-- A whole block is read up to the types without a throw. -/
theorem load_whole (whole : Whole bytes) : load ⟨bytes, {}⟩ =
    finish ((times bytes).zip (typeIndices bytes)) (charcnt bytes)
      ⟨bytes.drop (charsBegin bytes), { localtimes := types bytes }⟩ := by
  obtain ⟨magic, ⟨timecnt_nonneg, -, -⟩, fits⟩ := whole
  simp only [blockEnd, charsBegin, typesBegin] at fits
  have head : readBytes 4 ⟨bytes, ({} : Data)⟩ = .ok tzif ⟨bytes.drop 4, {}⟩ := by
    rw [← magic]
    exact readBytes_reads bytes (by decide) 0 {} (by omega)
  have version : readBytes 1 ⟨bytes.drop 4, ({} : Data)⟩ =
      .ok ((bytes.drop 4).take 1) ⟨bytes.drop 5, {}⟩ :=
    readBytes_reads bytes (by decide) 4 {} (by omega)
  have reserved : readBytes 15 ⟨bytes.drop 5, ({} : Data)⟩ =
      .ok ((bytes.drop 5).take 15) ⟨bytes.drop 20, {}⟩ :=
    readBytes_reads bytes (by decide) 5 {} (by omega)
  have counts := fun k => readInt32_reads bytes k ({} : Data)
  have times_read : readInt32 ⟨bytes.drop 32, ({} : Data)⟩ =
      .ok (timecnt bytes) ⟨bytes.drop 36, {}⟩ := counts 32 (by omega)
  have types_read : readInt32 ⟨bytes.drop 36, ({} : Data)⟩ =
      .ok (typecnt bytes) ⟨bytes.drop 40, {}⟩ := counts 36 (by omega)
  have chars_read : readInt32 ⟨bytes.drop 40, ({} : Data)⟩ =
      .ok (charcnt bytes) ⟨bytes.drop 44, {}⟩ := counts 40 (by omega)
  have trans := repeated_reads (readInt32_reads bytes) (timecnt bytes).toNat 44 ({} : Data)
    (by omega)
  have localtimes := repeated_reads (readUInt8_reads bytes) (timecnt bytes).toNat
    (44 + 4 * (timecnt bytes).toNat) ({} : Data) (by omega)
  have here : 44 + 4 * (timecnt bytes).toNat + 1 * (timecnt bytes).toNat = typesBegin bytes := by
    rw [typesBegin]
    omega
  rw [here] at localtimes
  have types := readLocaltimes_ok bytes (typecnt bytes).toNat (typesBegin bytes) {}
    (by rw [typesBegin]; omega)
  rw [load, bind_ok head, bind_ok (require_ok (decide_eq_true rfl) _), bind_ok version,
    bind_ok reserved, bind_ok (counts 20 (by omega)), bind_ok (counts 24 (by omega)),
    bind_ok (counts 28 (by omega)), bind_ok times_read, bind_ok types_read, bind_ok chars_read,
    bind_ok (require_ok (decide_eq_true timecnt_nonneg) _), bind_ok trans, bind_ok localtimes,
    bind_ok types]
  rfl

theorem finish_ok {pairs : List (Int × Nat)} {charcnt : Int} {k : Nat} (data : Data)
    (sign : 0 ≤ charcnt) (fits : k + charcnt.toNat ≤ bytes.length)
    (inside : ∀ pair ∈ pairs, pair.2 < data.localtimes.length) :
    ∃ rest, finish pairs charcnt ⟨bytes.drop k, data⟩ = .ok () ⟨rest, { data with
      transitions := data.transitions ++ pairs.map (transitionOf data)
      abbreviation := (bytes.drop k).take charcnt.toNat }⟩ := by
  refine ⟨bytes.drop (k + charcnt.toNat), ?_⟩
  have abbreviation := fun data : Data => readBytes_reads bytes sign k data fits
  rw [finish, bind_ok (addTransitions_ok inside), bind_ok (abbreviation _)]
  rfl

theorem length_typeIndices : (typeIndices bytes).length = (times bytes).length := by
  simp only [typeIndices, times, List.length_map]

/-- With every index in bounds, the tables are those of the block. -/
theorem ofFile_whole (whole : Whole bytes)
    (inside : ∀ localIdx ∈ typeIndices bytes, localIdx < (types bytes).length) :
    ofFile (some bytes) = some ⟨some (blockData bytes)⟩ := by
  have pairs : ∀ pair ∈ (times bytes).zip (typeIndices bytes), pair.2 < (types bytes).length :=
    fun pair member => inside pair.2 (List.of_mem_zip member).2
  have loaded := load_whole whole
  obtain ⟨rest, finished⟩ := finish_ok { localtimes := types bytes }
    whole.counts.2.2 whole.fits pairs
  rw [ofFile, readTimeZoneFile]
  simp only [loaded, finished]
  rfl

/-- Else the types are read out of bounds. -/
theorem ofFile_wild (whole : Whole bytes)
    (outside : ∃ localIdx ∈ typeIndices bytes, ¬ localIdx < (types bytes).length) :
    ofFile (some bytes) = none := by
  obtain ⟨localIdx, member, far⟩ := outside
  have seconds : ((times bytes).zip (typeIndices bytes)).map Prod.snd = typeIndices bytes :=
    List.map_snd_zip (Nat.le_of_eq length_typeIndices)
  rw [← seconds] at member
  obtain ⟨pair, paired, rfl⟩ := List.mem_map.mp member
  obtain ⟨s, wild⟩ := addTransitions_wild (bytes.drop (charsBegin bytes))
    { localtimes := types bytes } ⟨pair, paired, far⟩
  have loaded := load_whole whole
  rw [finish, bind_error wild] at loaded
  rw [ofFile, readTimeZoneFile]
  simp only [loaded]
  rfl

/-- Whatever is thrown, the zone is valid. -/
theorem valid_of_ofFile {zonefile : Option (List UInt8)} {zone : TimeZone}
    (loaded : ofFile zonefile = some zone) : zone.valid = true := by
  obtain ⟨⟨read, data⟩, result, rfl⟩ := Option.map_eq_some_iff.mp loaded
  have yes : read = true := by
    cases zonefile with
    | none =>
      cases result
      rfl
    | some bytes =>
      simp only [readTimeZoneFile] at result
      split at result <;> cases result <;> rfl
  rw [yes]
  rfl

end Loading

/-! ## Using it -/

section InBounds
variable {gmtime_r : Int → Tm Int} {timegm : Tm Int → Int} {data : Data}

/-- The pointer is to an abbreviation or right behind the last. -/
def Points (data : Data) (zone : CString) : Prop :=
  ∃ index, zone = .abbreviation index ∧ index ≤ data.abbreviation.length

/-- No element is accessed out of bounds, whatever the arguments are. -/
structure InBounds (gmtime_r : Int → Tm Int) (timegm : Tm Int → Int) (data : Data) : Prop where
  toLocal : ∀ seconds, ∃ tm, toLocalTime gmtime_r data seconds = some tm ∧ Points data tm.tm_zone
  fromLocal : ∀ localTm, (fromLocalTime gmtime_r timegm data localTm).isSome = true

/-- A type that holds at some time has a place among the abbreviations: the first one, which
holds before all transitions, and that of a transition the search settles on. -/
structure Named (data : Data) : Prop where
  front : ∀ type, data.localtimes.head? = some type → type.arrbIdx ≤ data.abbreviation.length
  reached : ∀ seconds transition type,
    data.transitions.head?.any (fun first => first.gmttime ≤ seconds) = true →
    data.transitions[pick data ⟨seconds, 0, 0⟩ ⟨true⟩]? = some transition →
    data.localtimes[transition.localtimeIdx]? = some type →
    type.arrbIdx ≤ data.abbreviation.length

/-- Each transition has a type. -/
def Typed (data : Data) : Prop :=
  ∀ transition ∈ data.transitions, transition.localtimeIdx < data.localtimes.length

theorem toLocalTime_points {seconds : Int} :
    (∃ tm, toLocalTime gmtime_r data seconds = some tm ∧ Points data tm.tm_zone) ↔
      ∃ type, findLocaltime data ⟨seconds, 0, 0⟩ ⟨true⟩ = some type ∧
        type.arrbIdx ≤ data.abbreviation.length := by
  constructor
  · rintro ⟨tm, result, index, zone, inside⟩
    obtain ⟨type, found, rfl⟩ := Option.map_eq_some_iff.mp result
    cases zone
    exact ⟨type, found, inside⟩
  · rintro ⟨type, found, inside⟩
    exact ⟨_, toLocalTime_eq found, type.arrbIdx, rfl, inside⟩

theorem findLocaltime_isSome (typed : Typed data) (types : data.localtimes ≠ [])
    (sentry : Transition) (comp : Comp) : ∃ type, findLocaltime data sentry comp = some type := by
  cases early : data.transitions.head?.all (comp.less sentry) with
  | true =>
    rw [findLocaltime_front early]
    exact ⟨_, List.head?_eq_some_head types⟩
  | false =>
    obtain ⟨found, picked, result, -⟩ := findLocaltime_pick early
    rw [result]
    exact ⟨_, List.getElem?_eq_getElem (typed found (List.mem_of_getElem? picked))⟩

theorem exists_early (data : Data) :
    ∃ seconds, data.transitions.head?.all (Comp.less ⟨true⟩ ⟨seconds, 0, 0⟩) = true := by
  cases head : data.transitions.head? with
  | none => exact ⟨0, rfl⟩
  | some first =>
    refine ⟨first.gmttime - 1, ?_⟩
    rw [Option.all_some, less_iff]
    simp only [key_gmt]
    omega

theorem early_iff {seconds : Int} :
    data.transitions.head?.all (Comp.less ⟨true⟩ ⟨seconds, 0, 0⟩) = false ↔
      data.transitions.head?.any (fun first => first.gmttime ≤ seconds) = true := by
  cases data.transitions.head? <;> simp [Comp.less]

theorem inBounds_iff (typed : Typed data) :
    InBounds gmtime_r timegm data ↔ data.localtimes ≠ [] ∧ Named data := by
  constructor
  · rintro ⟨toLocal, -⟩
    have found := fun seconds => toLocalTime_points.mp (toLocal seconds)
    obtain ⟨seconds, early⟩ := exists_early data
    obtain ⟨type, first, inside⟩ := found seconds
    rw [findLocaltime_front early] at first
    refine ⟨?_, ?_, ?_⟩
    · intro none
      rw [none] at first
      cases first
    · intro other same
      cases first.symm.trans same
      exact inside
    · intro seconds transition type late picked here
      obtain ⟨settled, picked', result, -⟩ := findLocaltime_pick (early_iff.mpr late)
      cases picked.symm.trans picked'
      obtain ⟨type', same, inside⟩ := found seconds
      rw [result, here] at same
      cases same
      exact inside
  · rintro ⟨types, front, reached⟩
    have found := findLocaltime_isSome typed types
    constructor
    · intro seconds
      obtain ⟨type, result⟩ := found ⟨seconds, 0, 0⟩ ⟨true⟩
      refine toLocalTime_points.mpr ⟨type, result, ?_⟩
      cases early : data.transitions.head?.all (Comp.less ⟨true⟩ ⟨seconds, 0, 0⟩) with
      | true =>
        rw [findLocaltime_front early] at result
        exact front type result
      | false =>
        obtain ⟨settled, picked, result', -⟩ := findLocaltime_pick early
        exact reached seconds settled type (early_iff.mp early) picked
          (result'.symm.trans result)
    · intro localTm
      obtain ⟨byLocal, first⟩ := found ⟨0, timegm localTm, 0⟩ ⟨false⟩
      obtain ⟨byGmt, second⟩ := found ⟨timegm localTm - byLocal.gmtOffset, 0, 0⟩ ⟨true⟩
      rw [fromLocalTime]
      simp only [first, Option.bind_some, toLocalTime_eq second, Option.map_some]
      split <;> rfl

end InBounds

/-! ## What a file must hold -/

section Robust
variable {data : Data}

/-- A zone is valid only if the whole block was read, and neither loading nor using it
accesses anything out of bounds. -/
structure Robust (gmtime_r : Int → Tm Int) (timegm : Tm Int → Int)
    (zonefile : Option (List UInt8)) : Prop where
  loaded : (ofFile zonefile).isSome = true
  whole : ∀ zone, ofFile zonefile = some zone → zone.valid = true →
    ∃ bytes, zonefile = some bytes ∧ Whole bytes ∧ zone.data_ = some (blockData bytes)
  inBounds : ∀ zone data, ofFile zonefile = some zone → zone.data_ = some data →
    InBounds gmtime_r timegm data

/-- The loader gives each transition the local time that its type makes of its time. -/
theorem built_blockData {bytes : List UInt8}
    (inside : ∀ localIdx ∈ typeIndices bytes, localIdx < (types bytes).length) :
    Built (blockData bytes) := by
  intro transition member
  obtain ⟨pair, paired, rfl⟩ := List.mem_map.mp member
  have type := List.getElem?_eq_getElem (inside pair.2 (List.of_mem_zip paired).2)
  refine ⟨_, type, ?_⟩
  simp only [type, Option.elim_some]

theorem Built.typed (built : Built data) : Typed data := by
  intro transition member
  obtain ⟨type, found, -⟩ := built transition member
  exact (List.getElem?_eq_some_iff.mp found).1

theorem types_ne_nil {bytes : List UInt8} : types bytes ≠ [] ↔ 0 < typecnt bytes := by
  rw [← List.length_pos_iff, types, List.length_map, List.length_range]
  omega

theorem indices_inside {bytes : List UInt8} :
    (∀ localIdx ∈ typeIndices bytes, localIdx < (types bytes).length) ↔
      ∀ localIdx ∈ typeIndices bytes, (localIdx : Int) < typecnt bytes := by
  rw [types, List.length_map, List.length_range]
  constructor
  · intro inside localIdx member
    have := inside localIdx member
    omega
  · intro inside localIdx member
    have := inside localIdx member
    omega

/-- That holds of the files that hold a whole block with a type, with the type indices and
the abbreviation indices in use in bounds, and of no other. -/
theorem robust_iff (zonefile : Option (List UInt8)) (gmtime_r : Int → Tm Int)
    (timegm : Tm Int → Int) :
    Robust gmtime_r timegm zonefile ↔ ∃ bytes, zonefile = some bytes ∧ Whole bytes ∧
      0 < typecnt bytes ∧ (∀ localIdx ∈ typeIndices bytes, localIdx < typecnt bytes) ∧
      Named (blockData bytes) := by
  constructor
  · rintro ⟨loaded, wholeBlock, inBounds⟩
    obtain ⟨zone, result⟩ := Option.isSome_iff_exists.mp loaded
    obtain ⟨bytes, rfl, whole, data⟩ := wholeBlock zone result (valid_of_ofFile result)
    have inside : ∀ localIdx ∈ typeIndices bytes, localIdx < (types bytes).length := by
      by_contra outside
      rw [ofFile_wild whole (by simpa only [not_forall, exists_prop] using outside)] at result
      cases result
    obtain ⟨nonempty, named⟩ :=
      (inBounds_iff (built_blockData inside).typed).mp (inBounds zone _ result data)
    exact ⟨bytes, rfl, whole, types_ne_nil.mp nonempty, indices_inside.mp inside, named⟩
  · rintro ⟨bytes, rfl, whole, nonempty, indices, named⟩
    have inside := indices_inside.mpr indices
    have result := ofFile_whole whole inside
    constructor
    · rw [result]
      rfl
    · intro zone same _
      cases result.symm.trans same
      exact ⟨bytes, rfl, whole, rfl⟩
    · intro zone data same data_
      cases result.symm.trans same
      cases data_
      exact (inBounds_iff (built_blockData inside).typed).mpr ⟨types_ne_nil.mpr nonempty, named⟩

/-- A file that is not there makes a valid zone, and using it reads the first of no types. -/
theorem missing_file_valid : ¬ ∀ zonefile gmtime_r timegm, Robust gmtime_r timegm zonefile := by
  intro robust
  have missing := robust none (UtcTime.brokenDown · true) secondsOf
  have made : ofFile none = some ⟨some {}⟩ := rfl
  obtain ⟨tm, read, -⟩ := (missing.inBounds _ _ made rfl).toLocal 0
  have wild : toLocalTime (UtcTime.brokenDown · true) {} 0 = none := rfl
  rw [wild] at read
  cases read

/-- One type, without transitions. -/
def utcFile : List UInt8 :=
  tzif ++ List.replicate 28 0 ++ [0, 0, 0, 0, 0, 0, 0, 1, 0, 0, 0, 4] ++ [0, 0, 0, 0, 0, 0] ++
    [85, 84, 67, 0]

theorem utcFile_robust : Robust (UtcTime.brokenDown · true) secondsOf (some utcFile) := by
  have tables : blockData utcFile = ⟨[], [⟨0, false, 0⟩], [85, 84, 67, 0]⟩ := by
    decide +kernel
  refine (robust_iff _ _ _).mpr ⟨utcFile, rfl, ⟨by decide, by decide, by decide⟩, by decide,
    by decide, ?_⟩
  rw [tables]
  constructor
  · intro type first
    cases first
    decide
  · intro seconds transition type late
    cases late

end Robust

end TimeZone
end Arale
