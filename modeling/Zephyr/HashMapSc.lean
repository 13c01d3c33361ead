import Mathlib

/-! The hash map with separate chaining of `lib/hash/hash_map_sc.c`, with the load computation of
`include/zephyr/sys/hash_map.h`, when its allocator fails.
-/

namespace Zephyr.HashMapSc

/-! ### The map -/

def enomem : Int := 12

/-- `struct sys_hashmap_sc_entry` -/
structure Entry where
  key : UInt64
  value : UInt64
  deriving DecidableEq, Repr

/-- `struct sys_hashmap_config` -/
structure Config where
  loadFactor : Nat
  initialNBuckets : Nat

/-- `struct sys_hashmap_data`; the list of each bucket up to `nBuckets`. -/
structure Data where
  buckets : Nat → List Entry := fun _ => []
  nBuckets : Nat := 0
  size : Nat := 0

/-- `size_t` has 32 bits. -/
def sizeLimit : Nat := 2 ^ 32

variable (hashFunc : UInt64 → UInt32) (config : Config)

def insertEntry (data : Data) (entry : Entry) : Data :=
  let place := (hashFunc entry.key).toNat % data.nBuckets
  { data with
    buckets := Function.update data.buckets place (data.buckets place ++ [entry])
    size := data.size + 1 }

def insertAll (data : Data) (list : List Entry) : Data :=
  list.foldl (insertEntry hashFunc) data

def toList (data : Data) : List Entry :=
  (List.range data.nBuckets).flatMap data.buckets

/-- `sys_hashmap_should_rehash` without reserved entries, and the new number of buckets. -/
def shouldRehash (data : Data) (grow : Bool) : Bool × Nat :=
  let size := data.size + grow.toNat
  let nBuckets := data.nBuckets
  let nBuckets := nBuckets + grow.toNat * (size == 1).toNat * config.initialNBuckets
  let nBuckets := nBuckets * 2 ^ (grow.toNat * (size != 1).toNat) % sizeLimit
  let nBuckets := nBuckets / 2 ^ (!grow).toNat
  let nBuckets := nBuckets * (size != 0).toNat
  let shouldGrow :=
    grow && (data.nBuckets == 0 || size * 100 % sizeLimit / data.nBuckets > config.loadFactor)
  let shouldShrink :=
    !grow && (nBuckets == 0 || size * 100 % sizeLimit / nBuckets ≤ config.loadFactor)
  (shouldGrow || shouldShrink, nBuckets)

/-- `sys_hashmap_sc_rehash`; `allocated` says whether the allocator returns memory. -/
def rehash (data : Data) (grow allocated : Bool) : Data × Int :=
  let (should, newNBuckets) := shouldRehash config data grow
  if !should then (data, 0)
  else
    let list := toList data
    let emptied := { data with buckets := fun _ => [] }
    if !allocated && newNBuckets != 0 then (insertAll hashFunc emptied list, -enomem)
    else
      (insertAll hashFunc { nBuckets := newNBuckets } list, 0)

def find (data : Data) (key : UInt64) : Option Entry :=
  if data.nBuckets = 0 then none
  else (data.buckets ((hashFunc key).toNat % data.nBuckets)).find? (fun entry => entry.key == key)

def get (data : Data) (key : UInt64) : Option UInt64 :=
  (find hashFunc data key).map Entry.value

/-- The allocator's answers to the two requests of an insertion. -/
structure Answers where
  buckets : Bool
  entry : Bool

/-- `sys_hashmap_sc_insert` -/
def insert (data : Data) (key value : UInt64) (answers : Answers) : Data × Int :=
  match find hashFunc data key with
  | some _ =>
      let place := (hashFunc key).toNat % data.nBuckets
      ({ data with
          buckets :=
            Function.update data.buckets place
              ((data.buckets place).replaceF fun entry =>
                if entry.key == key then some { entry with value := value } else none) },
        0)
  | none =>
      let (data, ret) := rehash hashFunc config data true answers.buckets
      if ret < 0 then (data, ret)
      else if !answers.entry then (data, -enomem)
      else (insertEntry hashFunc data ⟨key, value⟩, 1)

/-! ### Entries and places -/

/-- Every entry is counted and in the bucket of its hash, and a table that grows stays within
`size_t`.
-/
structure Sound (data : Data) : Prop where
  counted : data.size = (toList data).length
  placed
    : ∀ place, ∀ entry ∈ data.buckets place,
        place < data.nBuckets ∧ (hashFunc entry.key).toNat % data.nBuckets = place
  doubles : 2 * data.nBuckets < sizeLimit
  starts : data.nBuckets + config.initialNBuckets < sizeLimit

section

variable {hashFunc : UInt64 → UInt32} {config : Config} {data : Data}

theorem insertEntry_nBuckets (data : Data) (entry : Entry)
    : (insertEntry hashFunc data entry).nBuckets = data.nBuckets :=
  rfl

theorem insertEntry_buckets (data : Data) (entry : Entry) (place : Nat)
    : (insertEntry hashFunc data entry).buckets place
      = data.buckets place
        ++ [entry].filter fun entry => (hashFunc entry.key).toNat % data.nBuckets = place := by
  by_cases here : (hashFunc entry.key).toNat % data.nBuckets = place
  · subst here
    simp [insertEntry]
  · simp [insertEntry, here, Function.update_of_ne (Ne.symm here)]

theorem insertAll_eq (hashFunc : UInt64 → UInt32) (list : List Entry) (data : Data)
    : (insertAll hashFunc data list).nBuckets = data.nBuckets
      ∧ (insertAll hashFunc data list).size = data.size + list.length
      ∧ ∀ place,
          (insertAll hashFunc data list).buckets place
          = data.buckets place
            ++ list.filter fun entry => (hashFunc entry.key).toNat % data.nBuckets = place := by
  induction list generalizing data with
  | nil => simp [insertAll]
  | cons entry rest ih =>
      obtain ⟨sameCount, size, buckets⟩ := ih (insertEntry hashFunc data entry)
      refine ⟨sameCount, ?_, fun place => ?_⟩
      · refine size.trans ?_
        rw [List.length_cons, Nat.add_comm rest.length, ← Nat.add_assoc]
        rfl
      · refine (buckets place).trans ?_
        rw [insertEntry_buckets, insertEntry_nBuckets, List.append_assoc, ← List.filter_append,
          List.singleton_append]

theorem mem_toList {entry : Entry}
    : entry ∈ toList data ↔ ∃ place < data.nBuckets, entry ∈ data.buckets place := by
  simp [toList]

theorem flatMap_of_only {places : List Nat} {bucket : Nat → List Entry} {place : Nat}
    (once : places.Nodup) (member : place ∈ places)
    (only : ∀ other, other ≠ place → bucket other = [])
    : places.flatMap bucket = bucket place := by
  induction places with
  | nil => cases member
  | cons other rest ih =>
      obtain ⟨notLater, restOnce⟩ := List.nodup_cons.mp once
      rw [List.flatMap_cons]
      by_cases same : other = place
      · subst same
        have later : rest.flatMap bucket = [] := by
          rw [List.flatMap_eq_nil_iff]
          intro later isLater
          exact only later fun same => notLater (same ▸ isLater)
        rw [later, List.append_nil]
      · rw [only other same, List.nil_append,
          ih restOnce ((List.mem_cons.mp member).resolve_left (Ne.symm same))]

theorem Sound.filter_toList (sound : Sound hashFunc config data) (place : Nat)
    : (toList data).filter (fun entry => (hashFunc entry.key).toNat % data.nBuckets = place)
      = data.buckets place := by
  have own : (data.buckets place).filter
      (fun entry => (hashFunc entry.key).toNat % data.nBuckets = place) = data.buckets place :=
    List.filter_eq_self.mpr fun entry member =>
      decide_eq_true (sound.placed place entry member).2
  have others (other : Nat) (different : other ≠ place)
      : (data.buckets other).filter
          (fun entry => (hashFunc entry.key).toNat % data.nBuckets = place) = [] := by
    rw [List.filter_eq_nil_iff]
    intro entry member isPlace
    exact different
      ((sound.placed other entry member).2.symm.trans (of_decide_eq_true isPlace))
  rw [toList, List.filter_flatMap]
  by_cases inside : place < data.nBuckets
  · rw [flatMap_of_only List.nodup_range (List.mem_range.mpr inside) others, own]
  · have outside : data.buckets place = [] :=
      List.eq_nil_iff_forall_not_mem.mpr fun entry member =>
        inside (sound.placed place entry member).1
    rw [outside, List.flatMap_eq_nil_iff]
    intro other member
    exact others other fun same => inside (same ▸ List.mem_range.mp member)

theorem find?_of_place {list : List Entry} {count : Nat} (key : UInt64)
    : (list.filter fun entry =>
          (hashFunc entry.key).toNat % count = (hashFunc key).toNat % count).find?
        (fun entry => entry.key == key)
      = list.find? (fun entry => entry.key == key) := by
  rw [List.find?_filter]
  congr 1
  funext entry
  by_cases same : entry.key = key
  · simp [same]
  · simp [same]

theorem Sound.find_eq (sound : Sound hashFunc config data) (key : UInt64)
    : find hashFunc data key = (toList data).find? (fun entry => entry.key == key) := by
  unfold find
  split
  · rename_i none
    rw [toList, none]
    rfl
  · rw [← sound.filter_toList, find?_of_place]

/-! ### Failed insertions -/

/-- The map as its users see it. -/
structure Same (hashFunc : UInt64 → UInt32) (before after : Data) : Prop where
  size_eq : after.size = before.size
  get_eq : ∀ key, get hashFunc after key = get hashFunc before key
  entries : ∀ entry, entry ∈ toList after ↔ entry ∈ toList before

/-- The allocator has no memory for the buckets that an insertion asks for. -/
def BucketsFail (config : Config) (data : Data) (answers : Answers) : Prop :=
  (shouldRehash config data true).1 = true
  ∧ (shouldRehash config data true).2 ≠ 0
  ∧ answers.buckets = false

instance (config : Config) (data : Data) (answers : Answers)
    : Decidable (BucketsFail config data answers) :=
  inferInstanceAs (Decidable (_ ∧ _ ∧ _))

/-- The allocator returns `NULL` at some point of an insertion of a new key. -/
def AllocatorFails (config : Config) (data : Data) (answers : Answers) : Prop :=
  BucketsFail config data answers ∨ answers.entry = false

theorem Sound.rehash_failed (sound : Sound hashFunc config data) {answers : Answers}
    (fails : BucketsFail config data answers)
    : rehash hashFunc config data true answers.buckets
      = ({ data with size := data.size + data.size }, -enomem) := by
  obtain ⟨should, more, failed⟩ := fails
  obtain ⟨sameCount, size, buckets⟩ :=
    insertAll_eq hashFunc (toList data) { data with buckets := fun _ => [] }
  have restored : insertAll hashFunc { data with buckets := fun _ => [] } (toList data)
      = { data with size := data.size + data.size } := by
    rw [Data.mk.injEq]
    refine ⟨funext fun place => ?_, sameCount, size.trans (by rw [← sound.counted])⟩
    rw [buckets, List.nil_append, sound.filter_toList]
  simp only [rehash]
  rw [should, failed, if_neg (by simp), if_pos (by simpa using more), restored]

theorem Sound.newNBuckets_pos (sound : Sound hashFunc config data) (some : data.nBuckets ≠ 0)
    : (shouldRehash config data true).2 ≠ 0 := by
  have doubles := sound.doubles
  have starts := sound.starts
  by_cases first : data.size = 0
  · simp [shouldRehash, first]
    rw [Nat.mod_eq_of_lt starts]
    omega
  · have more : (data.size == 0) = false := beq_eq_false_iff_ne.mpr first
    simp [shouldRehash, more, bne]
    rw [Nat.mod_eq_of_lt (by omega)]
    omega

theorem Sound.redistributed (sound : Sound hashFunc config data) {count : Nat}
    (some : data.nBuckets ≠ 0 → count ≠ 0)
    : Same hashFunc data (insertAll hashFunc { nBuckets := count } (toList data)) := by
  obtain ⟨sameCount, size, buckets⟩ :=
    insertAll_eq hashFunc (toList data) { nBuckets := count }
  have nothing (noBuckets : count = 0) : toList data = [] := by
    have none : data.nBuckets = 0 := not_not.mp fun more => some more noBuckets
    rw [toList, none]
    rfl
  refine ⟨size.trans ?_, fun key => ?_, fun entry => ?_⟩
  · rw [Nat.zero_add, ← sound.counted]
  · rw [get, get, sound.find_eq, find, sameCount]
    split
    · rename_i none
      rw [nothing none]
      rfl
    · rw [buckets, List.nil_append, find?_of_place]
  · rw [mem_toList, sameCount]
    constructor
    · rintro ⟨place, -, member⟩
      rw [buckets, List.nil_append] at member
      exact List.mem_of_mem_filter member
    · intro member
      have more : 0 < count := by
        refine Nat.pos_of_ne_zero fun none => ?_
        rw [nothing none] at member
        cases member
      refine ⟨_, Nat.mod_lt (hashFunc entry.key).toNat more, ?_⟩
      rw [buckets, List.nil_append]
      exact List.mem_filter.mpr ⟨member, decide_eq_true rfl⟩

theorem Same.refl (hashFunc : UInt64 → UInt32) (data : Data) : Same hashFunc data data :=
  ⟨rfl, fun _ => rfl, fun _ => Iff.rfl⟩

theorem Sound.rehash_kept (sound : Sound hashFunc config data) {answers : Answers}
    (kept : ¬BucketsFail config data answers)
    : (rehash hashFunc config data true answers.buckets).2 = 0
      ∧ Same hashFunc data (rehash hashFunc config data true answers.buckets).1 := by
  simp only [rehash]
  split
  · exact ⟨rfl, .refl hashFunc data⟩
  · rename_i should
    split
    · rename_i failed
      refine absurd ⟨by simpa using should, ?_, ?_⟩ kept
      · simpa using (Bool.and_eq_true_iff.mp failed).2
      · simpa using (Bool.and_eq_true_iff.mp failed).1
    · exact ⟨rfl, sound.redistributed sound.newNBuckets_pos⟩

/-- An insertion for which the allocator fails says so. The map is as before, unless it had entries
and the failure was that of the buckets.
-/
theorem failed_insert_unchanged_iff {key : UInt64} {answers : Answers} (value : UInt64)
    (sound : Sound hashFunc config data) (new : get hashFunc data key = none)
    (fails : AllocatorFails config data answers)
    : (insert hashFunc config data key value answers).2 = -enomem
      ∧ (Same hashFunc data (insert hashFunc config data key value answers).1
          ↔ ¬BucketsFail config data answers ∨ data.size = 0) := by
  have absent : find hashFunc data key = none := Option.map_eq_none_iff.mp new
  have negative : -enomem < 0 := by decide
  by_cases buckets : BucketsFail config data answers
  · simp only [insert, absent, sound.rehash_failed buckets, if_pos negative]
    refine ⟨trivial, ?_⟩
    constructor
    · intro same
      have counted : data.size + data.size = data.size := same.size_eq
      exact .inr (by omega)
    · rintro (kept | none)
      · exact absurd buckets kept
      · exact ⟨show data.size + data.size = data.size by omega, fun _ => rfl, fun _ => Iff.rfl⟩
  · obtain ⟨zero, same⟩ := sound.rehash_kept buckets
    have noEntry : answers.entry = false := fails.resolve_left buckets
    simp only [insert, absent, zero, noEntry]
    exact ⟨rfl, fun _ => .inl buckets, fun _ => same⟩

end

/-! ### A map that counts its entry twice -/

def oneBucket : Config := ⟨100, 1⟩

def oneEntry : Data :=
  { buckets := fun place => if place = 0 then [⟨7, 70⟩] else [], nBuckets := 1, size := 1 }

theorem oneEntry_sound : Sound (fun _ => 0) oneBucket oneEntry where
  counted := rfl
  placed place entry member := by
    by_cases first : place = 0
    · exact ⟨by rw [first]; decide, by rw [first]; rfl⟩
    · simp [oneEntry, first] at member
  doubles := by decide
  starts := by decide

theorem failed_rehash_doubles_size
    : Sound (fun _ => 0) oneBucket oneEntry
      ∧ AllocatorFails oneBucket oneEntry ⟨false, false⟩
      ∧ (insert (fun _ => 0) oneBucket oneEntry 8 80 ⟨false, false⟩).2 = -enomem
      ∧ oneEntry.size = 1
      ∧ (insert (fun _ => 0) oneBucket oneEntry 8 80 ⟨false, false⟩).1.size = 2 := by
  exact ⟨oneEntry_sound, .inl (by decide), by decide, rfl, by decide⟩

theorem failed_entry_unchanged
    : (insert (fun _ => 0) oneBucket oneEntry 8 80 ⟨true, false⟩).2 = -enomem
      ∧ Same (fun _ => 0) oneEntry
          (insert (fun _ => 0) oneBucket oneEntry 8 80 ⟨true, false⟩).1 := by
  have kept : ¬BucketsFail oneBucket oneEntry ⟨true, false⟩ := by decide
  have fails : AllocatorFails oneBucket oneEntry ⟨true, false⟩ := .inr rfl
  have absent : get (fun _ => 0) oneEntry 8 = none := by decide
  have failed := failed_insert_unchanged_iff 80 oneEntry_sound absent fails
  exact ⟨failed.1, failed.2.mpr (.inl kept)⟩

end Zephyr.HashMapSc
