import Mathlib.Data.List.Basic
import ZenohC.Library.Machine

/-! Threads that work on shared state under one lock.
A thread takes the lock, works in steps of any number, and gives the lock back. Whatever the
order in which the threads take their steps, the shared state and the results are those of
the sections run one at a time, in the order in which they were completed.
-/

namespace ZenohC.Library

/-- How a job starts, and what one step under the lock does: it goes on or yields a result. -/
structure Sections (σ ι α ρ : Type*) where
  enter : ι → α
  step : σ → α → Option (σ × (α ⊕ ρ))

namespace Sections

/-- A thread outside its sections, or inside the section of one of its jobs. -/
inductive Thread (ι α : Type*) where
  | outside (todo : List ι)
  | inside (job : ι) (place : α) (todo : List ι)

/-- The jobs that a thread has not completed. -/
def Thread.jobs {ι α : Type*} : Thread ι α → List ι
  | .outside todo => todo
  | .inside job _ todo => job :: todo

def Thread.IsInside {ι α : Type*} : Thread ι α → Prop
  | .outside _ => False
  | .inside _ _ _ => True

/-- A completed job, with the thread that ran it and its result. -/
structure Completed (ι ρ : Type*) where
  thread : Nat
  job : ι
  result : ρ

/-- The shared state, the lock, the threads, and the jobs completed so far. -/
structure System (σ ι α ρ : Type*) where
  shared : σ
  locked : Bool
  threads : List (Thread ι α)
  completed : List (Completed ι ρ)

variable {σ ι α ρ : Type*} (sections : Sections σ ι α ρ)

/-- One step of one thread: it takes the lock if that is free, or works on in its section. -/
def stepThread (system : System σ ι α ρ) (thread : Nat) : Option (System σ ι α ρ) :=
  match system.threads[thread]? with
  | none | some (.outside []) => none
  | some (.outside (job :: todo)) =>
      if system.locked = true then none
      else
        some
          { system with
            locked := true
            threads := system.threads.set thread (.inside job (sections.enter job) todo) }
  | some (.inside job place todo) =>
      (sections.step system.shared place).map fun
        | (shared, .inl place) =>
            { system with
              shared, threads := system.threads.set thread (.inside job place todo) }
        | (shared, .inr result) =>
            { shared
              locked := false
              threads := system.threads.set thread (.outside todo)
              completed := system.completed ++ [{ thread, job, result }] }

/-- The threads, each with its jobs, scheduled one step at a time. -/
def machine (shared : σ) (jobs : List (List ι)) : Machine (System σ ι α ρ) Nat where
  init := { shared, locked := false, threads := jobs.map .outside, completed := [] }
  step := sections.stepThread

/-- What the steps of one section lead to before it is completed. -/
inductive Reaches : σ → α → σ → α → Prop where
  | refl (shared : σ) (place : α) : Reaches shared place shared place
  | step {shared middle last : σ} {place between final : α}
      (reached : Reaches shared place middle between)
      (stepped : sections.step middle between = some (last, .inl final))
      : Reaches shared place last final

/-- A job run from its start to its result, with nothing in between. -/
def Completes (shared : σ) (job : ι) (last : σ) (result : ρ) : Prop :=
  ∃ middle place,
    sections.Reaches shared (sections.enter job) middle place
    ∧ sections.step middle place = some (last, .inr result)

/-- Jobs run one at a time. -/
inductive Sequential : σ → List (Completed ι ρ) → σ → Prop where
  | nil (shared : σ) : Sequential shared [] shared
  | concat {shared middle last : σ} {before : List (Completed ι ρ)} {next : Completed ι ρ}
      (earlier : Sequential shared before middle)
      (completes : sections.Completes middle next.job last next.result)
      : Sequential shared (before ++ [next]) last

/-- The lock is free and nobody is inside, or one thread alone is inside and has the lock; the
completed sections have been run one at a time, and the one that is open follows them.
-/
inductive Exclusive (start : σ) (system : System σ ι α ρ) : Prop where
  | free (unlocked : system.locked = false)
      (nobody : ∀ thread ∈ system.threads, ¬thread.IsInside)
      (history : sections.Sequential start system.completed system.shared)
  | held {holder : Nat} {job : ι} {place : α} {todo : List ι} {middle : σ}
      (locked : system.locked = true)
      (inside : system.threads[holder]? = some (.inside job place todo))
      (alone
        : ∀ other thread, system.threads[other]? = some thread → thread.IsInside → other = holder)
      (history : sections.Sequential start system.completed middle)
      (reached : sections.Reaches middle (sections.enter job) system.shared place)

/-- Every thread has completed its jobs in order, up to those that it has still to do. -/
def InOrder (jobs : List (List ι)) (system : System σ ι α ρ) : Prop :=
  system.threads.length = jobs.length
  ∧ ∀ (index : Nat) (thread : Thread ι α) (own : List ι),
      system.threads[index]? = some thread → jobs[index]? = some own
      → (system.completed.filter fun completed => completed.thread = index).map Completed.job
          ++ thread.jobs
        = own

variable {sections} {start : σ} {system next : System σ ι α ρ} {thread : Nat}
  {jobs : List (List ι)}

/-- What one step of a thread can be. -/
theorem stepThread_cases (stepped : sections.stepThread system thread = some next)
    : (∃ job todo,
          system.threads[thread]? = some (.outside (job :: todo))
          ∧ system.locked = false
          ∧ next
            = { system with
                locked := true
                threads := system.threads.set thread (.inside job (sections.enter job) todo) })
      ∨ ∃ job place todo shared outcome,
          system.threads[thread]? = some (.inside job place todo)
          ∧ sections.step system.shared place = some (shared, outcome)
          ∧ ((∃ later,
                outcome = .inl later
                ∧ next
                  = { system with
                      shared, threads := system.threads.set thread (.inside job later todo) })
            ∨ ∃ result,
                outcome = .inr result
                ∧ next
                  = { shared
                      locked := false
                      threads := system.threads.set thread (.outside todo)
                      completed := system.completed ++ [{ thread, job, result }] }) := by
  unfold stepThread at stepped
  split at stepped
  · cases stepped
  · cases stepped
  · next job todo found =>
      split at stepped
      · cases stepped
      · next unlocked =>
          exact .inl ⟨job, todo, found, Bool.eq_false_iff.mpr unlocked, (Option.some.inj stepped).symm⟩
  · next job place todo found =>
      obtain ⟨⟨shared, outcome⟩, worked, same⟩ := Option.map_eq_some_iff.mp stepped
      refine .inr ⟨job, place, todo, shared, outcome, found, worked, ?_⟩
      cases outcome with
      | inl later => exact .inl ⟨later, rfl, same.symm⟩
      | inr result => exact .inr ⟨result, rfl, same.symm⟩

theorem getElem?_set_cases {β : Type*} {list : List β} {index other : Nat} {value found : β}
    (read : (list.set index value)[other]? = some found)
    : other = index ∧ found = value ∨ other ≠ index ∧ list[other]? = some found := by
  rw [List.getElem?_set] at read
  split at read
  · next same =>
      split at read
      · exact .inl ⟨same.symm, (Option.some.inj read).symm⟩
      · cases read
  · next apart => exact .inr ⟨Ne.symm apart, read⟩

/-- Only the thread that holds the lock works on the shared state. -/
theorem Exclusive.step (exclusive : sections.Exclusive start system)
    (stepped : sections.stepThread system thread = some next)
    : sections.Exclusive start next := by
  rcases stepThread_cases stepped with
    ⟨job, todo, found, unlocked, rfl⟩ | ⟨job, place, todo, shared, outcome, found, worked, went⟩
  · cases exclusive with
    | held locked => exact absurd (unlocked.symm.trans locked) Bool.false_ne_true
    | free _ nobody history =>
        have listed := (List.getElem?_eq_some_iff.mp found).1
        refine .held rfl (List.getElem?_set_self listed) ?_ history (.refl _ _)
        intro other thread read inside
        rcases getElem?_set_cases read with ⟨same, -⟩ | ⟨-, old⟩
        · exact same
        · exact absurd inside (nobody _ (List.mem_of_getElem? old))
  · cases exclusive with
    | free unlocked nobody history =>
        exact absurd trivial (nobody _ (List.mem_of_getElem? found))
    | held locked inside alone history reached =>
        obtain rfl := alone _ _ found trivial
        rw [found] at inside
        obtain ⟨rfl, rfl, rfl⟩ := Thread.inside.inj (Option.some.inj inside)
        have listed := (List.getElem?_eq_some_iff.mp found).1
        rcases went with ⟨later, rfl, rfl⟩ | ⟨result, rfl, rfl⟩
        · refine .held locked (List.getElem?_set_self listed) ?_ history (reached.step worked)
          intro other thread read inside
          rcases getElem?_set_cases read with ⟨same, -⟩ | ⟨-, old⟩
          · exact same
          · exact alone other thread old inside
        · refine .free rfl ?_ (history.concat ⟨_, _, reached, worked⟩)
          intro other member inside
          obtain ⟨index, read⟩ := List.mem_iff_getElem?.mp member
          rcases getElem?_set_cases read with ⟨-, rfl⟩ | ⟨apart, old⟩
          · exact inside
          · exact apart (alone index other old inside)

theorem InOrder.step (ordered : InOrder jobs system)
    (stepped : sections.stepThread system thread = some next)
    : InOrder jobs next := by
  obtain ⟨length, inOrder⟩ := ordered
  -- a thread that neither takes nor completes a job has the same jobs as before
  have kept (place : Thread ι α) (old : Thread ι α)
      (found : system.threads[thread]? = some old) (same : place.jobs = old.jobs)
      : ∀ index current own, (system.threads.set thread place)[index]? = some current
          → jobs[index]? = some own
          → (system.completed.filter fun completed => completed.thread = index).map Completed.job
              ++ current.jobs
            = own := by
    intro index current own read listed
    rcases getElem?_set_cases read with ⟨rfl, rfl⟩ | ⟨-, unchanged⟩
    · rw [same]
      exact inOrder index old own found listed
    · exact inOrder index current own unchanged listed
  rcases stepThread_cases stepped with
    ⟨job, todo, found, -, rfl⟩ | ⟨job, place, todo, shared, outcome, found, -, went⟩
  · exact ⟨by simpa using length, kept _ _ found rfl⟩
  · rcases went with ⟨later, -, rfl⟩ | ⟨result, -, rfl⟩
    · exact ⟨by simpa using length, kept _ _ found rfl⟩
    · refine ⟨by simpa using length, ?_⟩
      intro index current own read listed
      rcases getElem?_set_cases read with ⟨rfl, rfl⟩ | ⟨apart, unchanged⟩
      · have before := inOrder index _ own found listed
        simpa [Thread.jobs, List.filter_append] using before
      · have before := inOrder index current own unchanged listed
        simpa [List.filter_append, Ne.symm apart] using before

/-- Whatever the schedule is, at most one thread is inside, the sections are as if they had been
run one at a time, and each thread has completed its jobs in order.
-/
theorem run_exclusive {schedule : List Nat} {last : System σ ι α ρ}
    (ran : (sections.machine start jobs).run schedule = some last)
    : sections.Exclusive start last ∧ InOrder jobs last := by
  have keeps
      : ∀ system thread next,
          sections.Exclusive start system ∧ InOrder jobs system
          → (sections.machine start jobs).step system thread = some next
          → sections.Exclusive start next ∧ InOrder jobs next :=
    fun _ _ _ holds stepped => ⟨holds.1.step stepped, holds.2.step stepped⟩
  refine Machine.runFrom_preserves keeps ran ⟨.free rfl ?_ (.nil start), by simp [machine], ?_⟩
  · intro thread member
    obtain ⟨own, -, rfl⟩ := List.mem_map.mp member
    exact id
  · intro index thread own found listed
    simp only [machine, List.getElem?_map, listed, Option.map_some, Option.some.injEq] at found
    subst found
    rfl

/-- A step completes one job at most. -/
theorem completed_length_le {schedule : List Nat} {first last : System σ ι α ρ}
    (ran : (sections.machine start jobs).runFrom first schedule = some last)
    : last.completed.length ≤ first.completed.length + schedule.length := by
  induction schedule generalizing first with
  | nil =>
      cases ran
      exact Nat.le_refl _
  | cons thread schedule ih =>
      obtain ⟨next, stepped, ended⟩ := Machine.runFrom_cons_iff.mp ran
      have later := ih ended
      have one : next.completed.length ≤ first.completed.length + 1 := by
        rcases stepThread_cases stepped with ⟨_, _, _, _, rfl⟩ | ⟨_, _, _, _, _, _, _, went⟩
        · exact Nat.le_succ _
        · rcases went with ⟨_, _, rfl⟩ | ⟨_, _, rfl⟩
          · exact Nat.le_succ _
          · simp
      rw [List.length_cons]
      omega

/-- Jobs run one at a time are run one at a time up to any of them. -/
theorem Sequential.split {first last : σ} {before after : List (Completed ι ρ)}
    {completed : Completed ι ρ}
    (history : sections.Sequential first (before ++ completed :: after) last)
    : ∃ middle reached,
        sections.Sequential first before middle
        ∧ sections.Completes middle completed.job reached completed.result := by
  generalize whole : before ++ completed :: after = all at history
  induction history generalizing after with
  | nil => simp at whole
  | @concat middle last earlier new history completes ih =>
      obtain rfl | ⟨others, final, rfl⟩ := List.eq_nil_or_concat' after
      · obtain ⟨rfl, same⟩ := List.append_inj' whole rfl
        obtain rfl := List.singleton_inj.mp same
        exact ⟨middle, last, history, completes⟩
      · have longer : (before ++ completed :: others) ++ [final] = earlier ++ [new] := by
          simpa using whole
        obtain ⟨same, -⟩ := List.append_inj' longer rfl
        exact ih same

end Sections

end ZenohC.Library
