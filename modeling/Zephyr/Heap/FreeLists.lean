import Zephyr.Heap.Links

/-! Taking chunks out of the free lists and putting them in. -/

namespace Zephyr.Heap

open Library

variable {h : ZHeap} {base last : Nat} {tiles : Tiles Bool} {lists : Nat → List Nat}
  {loose : Set Nat}

/-! ### Taking a chunk out -/

theorem Plan.remove (plan : Plan last tiles lists loose) {i c : Nat} {before after : List Nat}
    (list : lists i = before ++ c :: after)
    : Plan last tiles (Function.update lists i (after ++ before)) (insert c loose) := by
  have nodup : (before ++ c :: after).Nodup := list ▸ plan.nodup
  have absent : c ∉ after ++ before := by
    simp only [List.nodup_append, List.nodup_cons, List.mem_cons] at nodup
    simp only [List.mem_append, not_or]
    exact ⟨nodup.2.1.1, fun inBefore => nodup.2.2 c inBefore c (.inl rfl) rfl⟩
  have inList : c ∈ lists i := by simp [list]
  have rest : ∀ {j x}, x ∈ Function.update lists i (after ++ before) j ↔ x ∈ lists j ∧ x ≠ c := by
    intro j x
    by_cases same : j = i
    · subst same
      rw [Function.update_self, list]
      constructor
      · intro member
        refine ⟨?_, fun isC => absent (isC ▸ member)⟩
        simp only [List.mem_append, List.mem_cons] at member ⊢
        exact member.symm.imp id .inr
      · rintro ⟨member, ne⟩
        simp only [List.mem_append, List.mem_cons, ne, false_or] at member ⊢
        exact member.symm
    · rw [Function.update_of_ne same]
      refine ⟨fun member => ⟨member, ?_⟩, And.left⟩
      rintro rfl
      obtain ⟨size, found, -, index⟩ := plan.listed member
      obtain ⟨size', found', -, index'⟩ := plan.listed inList
      rw [found] at found'
      cases found'
      exact same (index.symm.trans index')
  refine ⟨plan.tiling, plan.first, ?_, ?_, ?_⟩
  · intro j x
    rw [rest, plan.members, Set.mem_insert_iff, not_or, and_right_comm, and_comm (a := x ∉ loose)]
  · intro j
    by_cases same : j = i
    · rw [same, Function.update_self, List.nodup_append_comm]
      exact (List.nodup_cons.mp (List.nodup_middle.mp nodup)).2
    · rw [Function.update_of_ne same]
      exact plan.nodup
  · intro x size size' found found'
    exact (plan.coalesced found found').imp (Set.mem_insert_of_mem c) (Set.mem_insert_of_mem c)

namespace Represents

theorem counted (shape : Represents h base last tiles lists loose)
    (freeBytes allocatedBytes maxAllocatedBytes : BitVec 32)
    : Represents ⟨h.base, h.memory, freeBytes, allocatedBytes, maxAllocatedBytes⟩ base last tiles
        lists loose :=
  ⟨shape.base, shape.endChunk, shape.headers,
    ⟨shape.buckets.heads, shape.buckets.rings, shape.buckets.avail⟩, shape.plan⟩

theorem listed_bounds (shape : Represents h base last tiles lists loose) {i x : Nat}
    (member : x ∈ lists i)
    : chunk0Size last ≤ x ∧ x ≤ last := by
  obtain ⟨size, found, -, -⟩ := shape.plan.listed member
  have within := shape.plan.tiling.inside found
  exact ⟨shape.plan.behind found (shape.plan.free_ne_zero found), by omega⟩

theorem index_lt (shape : Represents h base last tiles lists loose) {i x : Nat}
    (member : x ∈ lists i)
    : i < nbBuckets last := by
  obtain ⟨size, found, -, index⟩ := shape.plan.listed member
  have within := shape.plan.tiling.inside found
  exact index ▸ bucketIdx_lt (by omega)

/-- The nodes of different lists are different. -/
theorem lists_disjoint (shape : Represents h base last tiles lists loose) {i j x : Nat}
    (member : x ∈ lists i) (member' : x ∈ lists j)
    : i = j := by
  obtain ⟨size, found, -, index⟩ := shape.plan.listed member
  obtain ⟨size', found', -, index'⟩ := shape.plan.listed member'
  rw [found] at found'
  cases found'
  exact index.symm.trans index'

theorem empty_of_ge (shape : Represents h base last tiles lists loose) {i : Nat} (ge : 32 ≤ i)
    : (lists i).isEmpty = true := by
  have bit : h.availBuckets.getLsbD i = !(lists i).isEmpty := shape.buckets.avail
  rw [BitVec.getLsbD_of_ge _ _ ge] at bit
  simpa using bit

theorem removeOnly (shape : Represents h base last tiles lists loose) (sizes : Sizes last)
    {i c : Nat} (list : lists i = [c])
    : Represents (h.freeListRemoveBidx c i) base last tiles (Function.update lists i [])
        (insert c loose) := by
  have inRange : i < nbBuckets last := shape.index_lt (list ▸ List.mem_singleton_self c)
  have few := sizes.nbBuckets_le
  have ring : Circular h.nextFreeChunk h.prevFreeChunk [c] := list ▸ shape.buckets.rings
  have plan : Plan last tiles (Function.update lists i []) (insert c loose) :=
    shape.plan.remove (show lists i = [] ++ c :: [] from list)
  rw [ZHeap.freeListRemoveBidx]
  refine counted (h := h.unlink c i) ?_ _ _ _
  rw [ZHeap.unlink, if_pos ring.next_single]
  have start : Relinked h last ∅ h .. := Relinked.refl shape.endChunk
  have written := (start.setAvail sizes (h.availBuckets &&& ~~~BitVec.twoPow 32 i)).setHead sizes
    inRange 0 (Nat.zero_le _)
  refine shape.relinked sizes written (fun _ isNode => isNode.elim)
    (written.buckets plan.listed_behind ?_ ?_ ?_) plan
  · intro j inRange'
    by_cases same : j = i
    · rw [same, Function.update_self, Function.update_self, List.headD_nil]
    · rw [Function.update_of_ne same, Function.update_of_ne same, shape.buckets.heads inRange']
  · intro j
    by_cases same : j = i
    · rw [same, Function.update_self]
      trivial
    · rw [Function.update_of_ne same]
      exact shape.buckets.rings
  · intro j
    rw [BitVec.getLsbD_and, BitVec.getLsbD_not, BitVec.getLsbD_twoPow, shape.buckets.avail]
    by_cases same : j = i
    · subst same
      simp [show j < 32 by omega]
    · rw [Function.update_of_ne same]
      by_cases small : j < 32
      · simp [small, Ne.symm same]
      · have empty : (lists j).isEmpty = true := shape.empty_of_ge (by omega)
        simp [empty]

theorem removeLinked (shape : Represents h base last tiles lists loose) (sizes : Sizes last)
    {i c second : Nat} {before after rest : List Nat} (list : lists i = before ++ c :: after)
    (others : after ++ before = second :: rest)
    : Represents (h.freeListRemoveBidx c i) base last tiles
        (Function.update lists i (second :: rest)) (insert c loose) := by
  have nodup : (c :: second :: rest).Nodup := by
    have whole : (before ++ c :: after).Nodup := list ▸ shape.plan.nodup
    rw [← others]
    rw [List.nodup_middle] at whole
    exact (List.perm_append_comm.cons c).nodup_iff.mp whole
  have ring : Circular h.nextFreeChunk h.prevFreeChunk (c :: second :: rest) :=
    others ▸ Circular.rotate (list ▸ shape.buckets.rings)
  have plan : Plan last tiles (Function.update lists i (second :: rest)) (insert c loose) :=
    others ▸ shape.plan.remove list
  have member : ∀ {x}, x ∈ c :: second :: rest → x ∈ lists i := by
    intro x present
    rw [← others] at present
    simp only [list, List.mem_append, List.mem_cons] at present ⊢
    tauto
  have firstIn : h.prevFreeChunk c ∈ lists i := member ring.links_mem.2
  have secondIn : h.nextFreeChunk c ∈ lists i := member ring.links_mem.1
  have notSelf : h.nextFreeChunk c ≠ c := fun self =>
    (List.cons_ne_nil _ _) ((ring.next_self nodup).mp self)
  rw [ZHeap.freeListRemoveBidx]
  refine counted (h := h.unlink c i) ?_ _ _ _
  rw [ZHeap.unlink, if_neg notSelf]
  have start : Relinked h last {x | x ∈ lists i} h .. := Relinked.refl shape.endChunk
  have written := ((start.setHead sizes (shape.index_lt firstIn) (h.nextFreeChunk c)
    (shape.listed_bounds secondIn).2).setNext sizes (shape.listed_bounds firstIn).1 firstIn
    (h.nextFreeChunk c) (shape.listed_bounds secondIn).2).setPrev sizes
    (shape.listed_bounds secondIn).1 secondIn (h.prevFreeChunk c) (shape.listed_bounds firstIn).2
  refine shape.relinked sizes written ?_ (written.buckets plan.listed_behind ?_ ?_ ?_) plan
  · intro node isNode
    obtain ⟨size, found, large, -⟩ := shape.plan.listed isNode
    exact ⟨size, found, large⟩
  · intro j inRange'
    by_cases same : j = i
    · rw [same, Function.update_self, Function.update_self, List.headD_cons, ring.next_head.1]
    · rw [Function.update_of_ne same, Function.update_of_ne same, shape.buckets.heads inRange']
  · intro j
    by_cases same : j = i
    · rw [same, Function.update_self]
      exact ring.remove nodup
    · -- the nodes of another list are not the ones that were written
      have apart : ∀ {x y}, x ∈ lists j → y ∈ lists i → x ≠ y :=
        fun inOther inThis isSame => same (shape.lists_disjoint inOther (isSame ▸ inThis))
      rw [Function.update_of_ne same]
      exact shape.buckets.rings.congr
        (fun node present => Function.update_of_ne (apart present firstIn) ..)
        (fun node present => Function.update_of_ne (apart present secondIn) ..)
  · intro j
    rw [shape.buckets.avail]
    by_cases same : j = i
    · rw [same, Function.update_self, list]
      simp
    · rw [Function.update_of_ne same]

theorem freeListRemoveBidx (shape : Represents h base last tiles lists loose)
    (sizes : Sizes last) {i c : Nat} {before after : List Nat}
    (list : lists i = before ++ c :: after)
    : Represents (h.freeListRemoveBidx c i) base last tiles
        (Function.update lists i (after ++ before)) (insert c loose) := by
  cases others : after ++ before with
  | nil =>
      obtain ⟨rfl, rfl⟩ := List.append_eq_nil_iff.mp others
      exact shape.removeOnly sizes list
  | cons second rest => exact shape.removeLinked sizes list others

/-- The code takes a chunk that has to be in a list out of it; a solo header is in none. -/
theorem freeListRemove (shape : Represents h base last tiles lists loose) (sizes : Sizes last)
    {c size : Nat} (tile : tiles c = some (size, false)) (tight : c ∉ loose)
    : ∃ lists', Represents (h.freeListRemove c) base last tiles lists' (insert c loose) := by
  rw [ZHeap.freeListRemove, shape.soloFreeHeader tile, shape.endChunk, shape.chunkSize tile]
  by_cases small : size < minChunkSize last
  · rw [if_pos (decide_eq_true small)]
    refine ⟨lists, shape.base, shape.endChunk, shape.headers, shape.buckets,
      shape.plan.tiling, shape.plan.first, ?_, shape.plan.nodup, ?_⟩
    · intro i x
      rw [shape.plan.members, Set.mem_insert_iff, not_or]
      refine ⟨fun ⟨tight', size', found, large, index⟩ => ?_,
        fun ⟨tight', rest⟩ => ⟨tight'.2, rest⟩⟩
      refine ⟨⟨?_, tight'⟩, size', found, large, index⟩
      rintro rfl
      rw [tile] at found
      cases found
      omega
    · intro x size' size'' found found'
      exact (shape.plan.coalesced found found').imp (Set.mem_insert_of_mem c)
        (Set.mem_insert_of_mem c)
  · rw [if_neg (by simpa using small)]
    have member : c ∈ lists (bucketIdx last size) :=
      shape.plan.members.mpr ⟨tight, size, tile, Nat.le_of_not_lt small, rfl⟩
    obtain ⟨before, after, list⟩ := List.append_of_mem member
    exact ⟨_, shape.freeListRemoveBidx sizes list⟩

theorem rotate (shape : Represents h base last tiles lists loose) (sizes : Sizes last)
    {i c : Nat} {rest : List Nat} (list : lists i = c :: rest)
    : Represents (h.setBucketNext i (h.nextFreeChunk c)) base last tiles
        (Function.update lists i (rest ++ [c])) loose := by
  have inList : c ∈ lists i := by simp [list]
  have inRange := shape.index_lt inList
  have ring : Circular h.nextFreeChunk h.prevFreeChunk (c :: rest) := list ▸ shape.buckets.rings
  have nextIn : h.nextFreeChunk c ∈ lists i := list ▸ ring.links_mem.1
  have plan : Plan last tiles (Function.update lists i (rest ++ [c])) loose := by
    have same : ∀ {j}, (Function.update lists i (rest ++ [c]) j).Perm (lists j) := by
      intro j
      by_cases isI : j = i
      · rw [isI, Function.update_self, list]
        exact List.perm_append_singleton c rest
      · rw [Function.update_of_ne isI]
    refine ⟨shape.plan.tiling, shape.plan.first, ?_, ?_, shape.plan.coalesced⟩
    · intro j x
      rw [same.mem_iff, shape.plan.members]
    · intro j
      exact same.nodup_iff.mpr shape.plan.nodup
  have start : Relinked h last ∅ h .. := Relinked.refl shape.endChunk
  have written := start.setHead sizes inRange (h.nextFreeChunk c) (shape.listed_bounds nextIn).2
  refine shape.relinked sizes written (fun _ isNode => isNode.elim)
    (written.buckets plan.listed_behind ?_ ?_ ?_) plan
  · intro j inRange'
    by_cases same : j = i
    · rw [same, Function.update_self, Function.update_self]
      cases rest with
      | nil => exact ring.next_single
      | cons second rest => exact ring.next_head.1
    · rw [Function.update_of_ne same, Function.update_of_ne same, shape.buckets.heads inRange']
  · intro j
    by_cases same : j = i
    · rw [same, Function.update_self]
      cases rest with
      | nil => exact ring
      | cons second rest =>
          exact Circular.rotate (show Circular _ _ ([c] ++ second :: rest) from ring)
    · rw [Function.update_of_ne same]
      exact shape.buckets.rings
  · intro j
    rw [shape.buckets.avail]
    by_cases same : j = i
    · rw [same, Function.update_self, list]
      simp
    · rw [Function.update_of_ne same]

end Represents

/-! ### Putting a chunk in -/

theorem Plan.coalesced_without (plan : Plan last tiles lists loose) {c size : Nat}
    (tile : tiles c = some (size, false))
    (right : ∀ {size'}, tiles (c + size) = some (size', false) → c + size ∈ loose)
    (left : ∀ {d size'}, tiles d = some (size', false) → d + size' = c → d ∈ loose)
    {x size' size'' : Nat} (found : tiles x = some (size', false))
    (found' : tiles (x + size') = some (size'', false))
    : x ∈ loose \ {c} ∨ x + size' ∈ loose \ {c} := by
  have positive := plan.tiling.inside tile
  simp only [Set.mem_sdiff, Set.mem_singleton_iff]
  by_cases isC : x = c
  · subst isC
    rw [tile] at found
    cases found
    exact .inr ⟨right found', by omega⟩
  · by_cases isNext : x + size' = c
    · exact .inl ⟨left found isNext, isC⟩
    · exact (plan.coalesced found found').imp (fun inLoose => ⟨inLoose, isC⟩)
        (fun inLoose => ⟨inLoose, isNext⟩)

theorem Plan.add (plan : Plan last tiles lists loose) {c size : Nat}
    (tile : tiles c = some (size, false)) (large : minChunkSize last ≤ size)
    (isLoose : c ∈ loose)
    (right : ∀ {size'}, tiles (c + size) = some (size', false) → c + size ∈ loose)
    (left : ∀ {d size'}, tiles d = some (size', false) → d + size' = c → d ∈ loose)
    : Plan last tiles
        (Function.update lists (bucketIdx last size) (lists (bucketIdx last size) ++ [c]))
        (loose \ {c}) := by
  have absent : ∀ {i}, c ∉ lists i := fun member => (plan.members.mp member).1 isLoose
  refine ⟨plan.tiling, plan.first, ?_, ?_, ?_⟩
  · intro i x
    by_cases isC : x = c
    · subst isC
      simp only [Set.mem_sdiff, Set.mem_singleton_iff, not_true_eq_false, and_false,
        not_false_eq_true, true_and, tile, Option.some.injEq, Prod.mk.injEq, and_true]
      by_cases same : i = bucketIdx last size
      · rw [same, Function.update_self]
        simp [large]
      · rw [Function.update_of_ne same]
        refine ⟨fun member => (absent member).elim, fun ⟨size', isSize, _, index⟩ => ?_⟩
        exact (same (index.symm.trans (by rw [isSize]))).elim
    · have others : x ∈ Function.update lists (bucketIdx last size)
          (lists (bucketIdx last size) ++ [c]) i ↔ x ∈ lists i := by
        by_cases same : i = bucketIdx last size
        · rw [same, Function.update_self]
          simp [isC]
        · rw [Function.update_of_ne same]
      rw [others, plan.members, Set.mem_sdiff, Set.mem_singleton_iff]
      simp only [isC, not_false_eq_true, and_true]
  · intro i
    by_cases same : i = bucketIdx last size
    · rw [same, Function.update_self]
      exact (List.perm_append_singleton c _).nodup_iff.mpr
        (List.nodup_cons.mpr ⟨absent, plan.nodup⟩)
    · rw [Function.update_of_ne same]
      exact plan.nodup
  · exact plan.coalesced_without tile right left

namespace Represents

theorem added (shape : Represents h base last tiles lists loose) (sizes : Sizes last)
    {i c : Nat} {loose' : Set Nat} {nodes : Set Nat}
    {after : ZHeap} {heads next prev : Nat → Nat} {avail : BitVec 32}
    (written : Relinked h last nodes after heads next prev avail)
    (starts : heads = Function.update h.bucketNext i ((lists i ++ [c]).headD 0))
    (free
      : ∀ node ∈ nodes, ∃ size, tiles node = some (size, false) ∧ minChunkSize last ≤ size)
    (ring : Circular next prev (lists i ++ [c]))
    (others
      : ∀ {j x}, j ≠ i → x ∈ lists j → next x = h.nextFreeChunk x ∧ prev x = h.prevFreeChunk x)
    (bits : ∀ {j}, avail.getLsbD j = (h.availBuckets.getLsbD j || decide (i = j)))
    (plan : Plan last tiles (Function.update lists i (lists i ++ [c])) loose')
    : Represents after base last tiles (Function.update lists i (lists i ++ [c])) loose' := by
  refine shape.relinked sizes written free (written.buckets plan.listed_behind ?_ ?_ ?_) plan
  · intro j inRange'
    rw [starts]
    by_cases same : j = i
    · rw [same, Function.update_self, Function.update_self]
    · rw [Function.update_of_ne same, Function.update_of_ne same, shape.buckets.heads inRange']
  · intro j
    by_cases same : j = i
    · rw [same, Function.update_self]
      exact ring
    · rw [Function.update_of_ne same]
      exact shape.buckets.rings.congr (fun node present => (others same present).1)
        (fun node present => (others same present).2)
  · intro j
    rw [bits, shape.buckets.avail]
    by_cases same : j = i
    · rw [same, Function.update_self]
      simp
    · rw [Function.update_of_ne same]
      simp [Ne.symm same]

theorem freeListAddBidx (shape : Represents h base last tiles lists loose) (sizes : Sizes last)
    {c size : Nat} (tile : tiles c = some (size, false)) (large : minChunkSize last ≤ size)
    (isLoose : c ∈ loose)
    (right : ∀ {size'}, tiles (c + size) = some (size', false) → c + size ∈ loose)
    (left : ∀ {d size'}, tiles d = some (size', false) → d + size' = c → d ∈ loose)
    : Represents (h.freeListAddBidx c (bucketIdx last size)) base last tiles
        (Function.update lists (bucketIdx last size) (lists (bucketIdx last size) ++ [c]))
        (loose \ {c}) := by
  have plan := shape.plan.add tile large isLoose right left
  have within := shape.plan.tiling.inside tile
  have behind := shape.plan.behind tile (shape.plan.free_ne_zero tile)
  have inRange : bucketIdx last size < nbBuckets last := bucketIdx_lt (by omega)
  have few := sizes.nbBuckets_le
  generalize bucketIdx last size = i at plan inRange ⊢
  have absent : ∀ {j}, c ∉ lists j := fun member => (shape.plan.members.mp member).1 isLoose
  have ne : ∀ {j x}, x ∈ lists j → x ≠ c := fun member isC => absent (isC ▸ member)
  by_cases list : lists i = []
  · have empty : h.bucketNext i = 0 := by rw [shape.buckets.heads inRange, list]; rfl
    rw [ZHeap.freeListAddBidx]
    refine counted (h := h.link c i) ?_ _ _ _
    rw [ZHeap.link, if_pos empty]
    have start : Relinked h last {c} h .. := Relinked.refl shape.endChunk
    have written := (((start.setAvail sizes (h.availBuckets ||| BitVec.twoPow 32 i)).setHead
      sizes inRange c (by omega)).setPrev sizes behind rfl c (by omega)).setNext sizes behind
      rfl c (by omega)
    refine shape.added sizes written ?_ ?_ ?_ ?_ ?_ plan
    · rw [list, List.nil_append, List.headD_cons]
    · rintro node rfl
      exact ⟨size, tile, large⟩
    · rw [list]
      exact List.isChain_pair.mpr ⟨Function.update_self .., Function.update_self ..⟩
    · intro j x _ member
      exact ⟨Function.update_of_ne (ne member) .., Function.update_of_ne (ne member) ..⟩
    · intro j
      rw [BitVec.getLsbD_or, BitVec.getLsbD_twoPow]
      simp [show i < 32 by omega]
  · obtain ⟨second, rest, list⟩ := List.exists_cons_of_ne_nil list
    have secondIn : second ∈ lists i := list ▸ List.mem_cons_self
    have head : h.bucketNext i = second := by rw [shape.buckets.heads inRange, list]; rfl
    have behind' := shape.listed_bounds secondIn
    have notZero : h.bucketNext i ≠ 0 := by
      have := sizes.chunk0
      omega
    have ring : Circular h.nextFreeChunk h.prevFreeChunk (second :: rest) :=
      list ▸ shape.buckets.rings
    have firstIn : h.prevFreeChunk second ∈ lists i := list ▸ ring.links_mem.2
    have behind'' := shape.listed_bounds firstIn
    rw [ZHeap.freeListAddBidx]
    refine counted (h := h.link c i) ?_ _ _ _
    rw [ZHeap.link, if_neg notZero, head]
    have start : Relinked h last (insert c {x | x ∈ lists i}) h .. :=
      Relinked.refl shape.endChunk
    have written := (((start.setPrev sizes behind (Set.mem_insert c _) (h.prevFreeChunk second)
      behind''.2).setNext sizes behind (Set.mem_insert c _) second behind'.2).setNext sizes
      behind''.1 (Set.mem_insert_of_mem c firstIn) c (by omega)).setPrev sizes behind'.1
      (Set.mem_insert_of_mem c secondIn) c (by omega)
    refine shape.added sizes written ?_ ?_ ?_ ?_ ?_ plan
    · rw [list, List.cons_append, List.headD_cons, ← head, Function.update_eq_self]
    · rintro node (rfl | member)
      · exact ⟨size, tile, large⟩
      · obtain ⟨size', found, large', -⟩ := shape.plan.listed member
        exact ⟨size', found, large'⟩
    · rw [list]
      exact ring.insert (list ▸ shape.plan.nodup) (list ▸ absent)
    · intro j x notI member
      have apart : ∀ {y}, y ∈ lists i → x ≠ y :=
        fun inThis isSame => notI (shape.lists_disjoint member (isSame ▸ inThis))
      rw [Function.update_of_ne (apart firstIn), Function.update_of_ne (ne member),
        Function.update_of_ne (apart secondIn), Function.update_of_ne (ne member)]
      exact ⟨rfl, rfl⟩
    · intro j
      by_cases same : i = j
      · rw [← same, shape.buckets.avail, list]
        simp
      · simp [same]

theorem freeListAdd (shape : Represents h base last tiles lists loose) (sizes : Sizes last)
    {c size : Nat} (tile : tiles c = some (size, false)) (isLoose : c ∈ loose)
    (right : ∀ {size'}, tiles (c + size) = some (size', false) → c + size ∈ loose)
    (left : ∀ {d size'}, tiles d = some (size', false) → d + size' = c → d ∈ loose)
    : ∃ lists', Represents (h.freeListAdd c) base last tiles lists' (loose \ {c}) := by
  rw [ZHeap.freeListAdd, shape.soloFreeHeader tile, shape.endChunk, shape.chunkSize tile]
  by_cases small : size < minChunkSize last
  · rw [if_pos (decide_eq_true small)]
    refine ⟨lists, shape.base, shape.endChunk, shape.headers, shape.buckets,
      shape.plan.tiling, shape.plan.first, ?_, shape.plan.nodup, ?_⟩
    · intro i x
      rw [shape.plan.members, Set.mem_sdiff, Set.mem_singleton_iff, not_and, not_not]
      refine and_congr_left fun ⟨size', found, large, index⟩ => ?_
      have notC : x ≠ c := by
        rintro rfl
        rw [tile] at found
        cases found
        omega
      simp only [notC, imp_false]
    · exact shape.plan.coalesced_without tile right left
  · rw [if_neg (by simpa using small)]
    exact ⟨_, shape.freeListAddBidx sizes tile (Nat.le_of_not_lt small) isLoose right left⟩

end Represents

end Zephyr.Heap
