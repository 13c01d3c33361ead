import Mathlib.Data.List.Nodup
import Zephyr.Kernel.Work.Model

/-! Where work is linked and which queue handles it, and what linking, unlinking and handling it
keep of that.
-/

namespace Zephyr.Kernel.Work

/-- What holds between two lock-protected steps. An item is linked exactly where its flag and its
queue say, a flusher is linked or handled only while it is in use, and nothing is linked or
handled in two places.
-/
structure Sound (system : System) : Prop where
  once : ∀ queue, (system.queue queue).pending.Nodup
  apart
    : ∀ {work queue other},
        work ∈ (system.queue queue).pending → work ∈ (system.queue other).pending
          → queue = other
  queued
    : ∀ {item queue},
        .item item ∈ (system.queue queue).pending
        ↔ (system.work (.item item)).flags.queued = true
          ∧ (system.work (.item item)).queue = some queue
  bound
    : ∀ {item},
        (system.work (.item item)).flags.queued = true
          → ∃ queue, (system.work (.item item)).queue = some queue
  flushing
    : ∀ {sync queue},
        .flusher sync ∈ (system.queue queue).pending
          → (system.work (.flusher sync)).flags.flushing = true
  handled
    : ∀ {item queue},
        (system.queue queue).handling = some (.item item)
          → (system.work (.item item)).flags.running = true
            ∧ (system.work (.item item)).queue = some queue
  flushed
    : ∀ {sync queue},
        (system.queue queue).handling = some (.flusher sync)
          → (system.work (.flusher sync)).flags.flushing = true
            ∧ ∀ other, .flusher sync ∉ (system.queue other).pending
  alone
    : ∀ {work queue other},
        (system.queue queue).handling = some work → (system.queue other).handling = some work
          → queue = other
  idle : ∀ {queue}, (system.queue queue).started = false → (system.queue queue).pending = []
  live
    : ∀ {item queue},
        (system.work (.item item)).queue = some queue → (system.queue queue).started = true

/-- Two systems in which the same work is linked and handled in the same places. -/
structure Alike (system next : System) : Prop where
  pending : ∀ queue, (next.queue queue).pending = (system.queue queue).pending
  handling : ∀ queue, (next.queue queue).handling = (system.queue queue).handling
  started : ∀ queue, (next.queue queue).started = (system.queue queue).started
  queued : ∀ work, (next.work work).flags.queued = (system.work work).flags.queued
  running : ∀ work, (next.work work).flags.running = (system.work work).flags.running
  flushing : ∀ work, (next.work work).flags.flushing = (system.work work).flags.flushing
  queue : ∀ work, (next.work work).queue = (system.work work).queue

variable {system next : System}

theorem Sound.alike (sound : Sound system) (alike : Alike system next) : Sound next := by
  obtain ⟨pending, handling, started, queued, running, flushing, queue⟩ := alike
  constructor
  · intro q
    rw [pending]
    exact sound.once q
  · intro work q other
    rw [pending, pending]
    exact sound.apart
  · intro item q
    rw [pending, queued, queue]
    exact sound.queued
  · intro item
    rw [queued, queue]
    exact sound.bound
  · intro sync q
    rw [pending, flushing]
    exact sound.flushing
  · intro item q
    rw [handling, running, queue]
    exact sound.handled
  · intro sync q
    simp only [handling, flushing, pending]
    exact sound.flushed
  · intro work q other
    rw [handling, handling]
    exact sound.alone
  · intro q
    rw [started, pending]
    exact sound.idle
  · intro item q
    rw [queue, started]
    exact sound.live

theorem Alike.setFlags (system : System) (work : WorkId) (change : Flags → Flags)
    (queued : (change (system.work work).flags).queued = (system.work work).flags.queued)
    (running : (change (system.work work).flags).running = (system.work work).flags.running)
    (flushing : (change (system.work work).flags).flushing = (system.work work).flags.flushing)
    : Alike system (system.setFlags work change) := by
  refine ⟨fun _ => rfl, fun _ => rfl, fun _ => rfl, ?_, ?_, ?_, ?_⟩ <;> intro other <;>
    by_cases same : other = work <;> simp_all [System.setFlags]

theorem Alike.setQueue (system : System) (queue : Nat) (change : KWorkQ → KWorkQ)
    (pending : (change (system.queue queue)).pending = (system.queue queue).pending)
    (handling : (change (system.queue queue)).handling = (system.queue queue).handling)
    (started : (change (system.queue queue)).started = (system.queue queue).started)
    : Alike system (system.setQueue queue change) := by
  refine ⟨?_, ?_, ?_, fun _ => rfl, fun _ => rfl, fun _ => rfl, fun _ => rfl⟩ <;> intro other <;>
    by_cases same : other = queue <;> simp_all [System.setQueue]

/-! ### Linking and unlinking -/

namespace Sound

variable {item sync queue : Nat}

theorem unlinked (sound : Sound system)
    (free : (system.work (.item item)).flags.queued = false) (queue : Nat)
    : .item item ∉ (system.queue queue).pending := by
  intro linked
  have queued := (sound.queued.mp linked).1
  rw [free] at queued
  cases queued

theorem link (sound : Sound system) (free : (system.work (.item item)).flags.queued = false)
    (started : (system.queue queue).started = true)
    (same
      : (system.work (.item item)).flags.running = true
          → (system.work (.item item)).queue = some queue)
    : Sound
        { system with
          work :=
            Function.update system.work (.item item)
              { queue := some queue
                flags := { (system.work (.item item)).flags with queued := true } }
          queue :=
            Function.update system.queue queue
              { system.queue queue with
                pending := (system.queue queue).pending ++ [.item item] } } := by
  have unlinked := sound.unlinked free
  obtain ⟨once, apart, queued, bound, flushing, handled, flushed, alone, idle, live⟩ := sound
  constructor
  · intro q
    by_cases here : q = queue
    · subst here
      have fresh := unlinked q
      simp only [Function.update_self, List.nodup_append]
      exact ⟨once q, List.nodup_singleton _, by grind⟩
    · simpa [here] using once q
  · intro work q other
    by_cases here : q = queue <;> by_cases there : other = queue <;> grind
  · intro i q
    by_cases here : q = queue <;> by_cases this : i = item <;> grind
  · intro i
    by_cases this : i = item <;> grind
  · intro s q
    by_cases here : q = queue <;> grind
  · intro i q
    by_cases here : q = queue <;> by_cases this : i = item <;> grind
  · intro s q
    grind
  · grind
  · grind
  · grind

theorem unlink (sound : Sound system) (bound : (system.work (.item item)).queue = some queue)
    : Sound
        { system with
          work :=
            Function.update system.work (.item item)
              { system.work (.item item) with
                flags := { (system.work (.item item)).flags with queued := false } }
          queue :=
            Function.update system.queue queue
              { system.queue queue with
                pending := (system.queue queue).pending.erase (.item item) } } := by
  have isBound := bound
  obtain ⟨once, apart, queued, bound, flushing, handled, flushed, alone, idle, live⟩ := sound
  have left : ∀ work, work ∈ (system.queue queue).pending.erase (.item item)
      ↔ work ≠ .item item ∧ work ∈ (system.queue queue).pending :=
    fun work => (once queue).mem_erase_iff
  constructor
  · intro q
    by_cases here : q = queue
    · subst here
      simpa using (once q).erase _
    · simpa [here] using once q
  · intro work q other
    by_cases here : q = queue <;> by_cases there : other = queue <;> grind
  · intro i q
    by_cases here : q = queue <;> by_cases this : i = item <;> grind
  · intro i
    by_cases this : i = item <;> grind
  · intro s q
    by_cases here : q = queue <;> grind
  · intro i q
    by_cases here : q = queue <;> by_cases this : i = item <;> grind
  · intro s q
    grind
  · grind
  · grind
  · grind

theorem linkFlusher {pending : List WorkId} (work : KWork) (sound : Sound system)
    (free : (system.work (.flusher sync)).flags.flushing = false)
    (inUse : work.flags.flushing = true) (started : (system.queue queue).started = true)
    (put : pending.Perm (.flusher sync :: (system.queue queue).pending))
    : Sound
        { system with
          work := Function.update system.work (.flusher sync) work
          queue :=
            Function.update system.queue queue
              { system.queue queue with pending := pending } } := by
  have unlinked : ∀ queue, .flusher sync ∉ (system.queue queue).pending := by
    intro queue linked
    have inUse := sound.flushing linked
    rw [free] at inUse
    cases inUse
  have unhandled : ∀ queue, (system.queue queue).handling ≠ some (.flusher sync) := by
    intro queue handling
    have inUse := (sound.flushed handling).1
    rw [free] at inUse
    cases inUse
  have members : ∀ work, work ∈ pending
      ↔ work = .flusher sync ∨ work ∈ (system.queue queue).pending :=
    fun work => put.mem_iff.trans List.mem_cons
  have distinct : pending.Nodup :=
    put.nodup_iff.mpr (List.nodup_cons.mpr ⟨unlinked queue, sound.once queue⟩)
  obtain ⟨once, apart, queued, bound, flushing, handled, flushed, alone, idle, live⟩ := sound
  constructor
  · intro q
    by_cases here : q = queue
    · subst here
      simpa using distinct
    · simpa [here] using once q
  · intro work q other
    by_cases here : q = queue <;> by_cases there : other = queue <;> grind
  · intro i q
    by_cases here : q = queue <;> grind
  · intro i
    grind
  · intro s q
    by_cases here : q = queue <;> by_cases this : s = sync <;> grind
  · intro i q
    by_cases here : q = queue <;> grind
  · intro s q
    by_cases here : q = queue <;> by_cases this : s = sync <;> grind
  · grind
  · grind
  · grind

/-! ### Handling -/

theorem take {work : WorkId} {rest : List WorkId} (sound : Sound system)
    (pending : (system.queue queue).pending = work :: rest)
    (resting : (system.queue queue).handling = none)
    : Sound
        { system with
          work :=
            Function.update system.work work
              { system.work work with
                flags := { (system.work work).flags with running := true, queued := false } }
          queue :=
            Function.update system.queue queue
              { system.queue queue with
                pending := rest
                busy := true
                handling := some work } } := by
  have linked : work ∈ (system.queue queue).pending := pending ▸ List.mem_cons_self
  have distinct := sound.once queue
  rw [pending, List.nodup_cons] at distinct
  obtain ⟨once, apart, queued, bound, flushing, handled, flushed, alone, idle, live⟩ := sound
  constructor
  · intro q
    by_cases here : q = queue
    · subst here
      simpa using distinct.2
    · simpa [here] using once q
  · intro other q q'
    by_cases here : q = queue <;> by_cases there : q' = queue <;> grind
  · intro i q
    by_cases here : q = queue <;> by_cases this : .item i = work <;> grind
  · intro i
    by_cases this : .item i = work <;> grind
  · intro s q
    by_cases here : q = queue <;> by_cases this : .flusher s = work <;> grind
  · intro i q
    by_cases here : q = queue <;> by_cases this : .item i = work <;> grind
  · intro s q
    by_cases here : q = queue <;> by_cases this : .flusher s = work <;> grind
  · intro other q q'
    by_cases here : q = queue <;> by_cases there : q' = queue <;> cases work <;> grind
  · grind
  · grind

theorem rest {work : WorkId} (flags : Flags) (sound : Sound system)
    (handling : (system.queue queue).handling = some work)
    (same : flags.queued = (system.work work).flags.queued)
    : Sound
        { system with
          work := Function.update system.work work { system.work work with flags := flags }
          queue :=
            Function.update system.queue queue
              { system.queue queue with busy := false, handling := none } } := by
  obtain ⟨once, apart, queued, bound, flushing, handled, flushed, alone, idle, live⟩ := sound
  constructor
  · intro q
    by_cases here : q = queue
    · subst here
      simpa using once q
    · simpa [here] using once q
  · intro other q q'
    by_cases here : q = queue <;> by_cases there : q' = queue <;> grind
  · intro i q
    by_cases here : q = queue <;> by_cases this : .item i = work <;> grind
  · intro i
    by_cases this : .item i = work <;> grind
  · intro s q
    by_cases here : q = queue <;> by_cases this : .flusher s = work <;> grind
  · intro i q
    by_cases here : q = queue <;> by_cases this : .item i = work <;> grind
  · intro s q
    by_cases here : q = queue <;> by_cases this : .flusher s = work <;> grind
  · grind
  · grind
  · grind

end Sound

end Zephyr.Kernel.Work
