import Mathlib.Data.List.Nodup

namespace SeoPlatform.Foundation.QueueSearch

/-- What is searched: a start, more sources at level one, where one may go from
where, and how far and how much. -/
structure Graph (α : Type) where
  start : α
  seeds : List α
  allowed : α → Bool
  next : α → List α
  maxLevel : Nat
  maxDone : Nat

/-- A search: those that have been seen, those that wait with their levels, and
those that are done, in order. -/
structure Search (α : Type) where
  seen : List α
  queue : List (α × Nat)
  done : List (α × Nat)

/-- There is a path of this length. It goes on only from where it is allowed. -/
inductive Reaches {α : Type} (g : Graph α) : Nat → α → Prop
  | start : Reaches g 0 g.start
  | seed {x : α} (h : x ∈ g.seeds) : Reaches g 1 x
  | next {n : Nat} {x y : α} (path : Reaches g n x) (hallowed : g.allowed x = true)
      (h : y ∈ g.next x) : Reaches g (n + 1) y

/-- The length of the shortest path. -/
def Shortest {α : Type} (g : Graph α) (n : Nat) (x : α) : Prop :=
  Reaches g n x ∧ ∀ m, Reaches g m x → n ≤ m

variable {α : Type}

/-- All that was seen, with its level. -/
def placed (s : Search α) (dropped : List (α × Nat)) : List (α × Nat) :=
  s.done ++ dropped ++ s.queue

/-- What holds between two steps of a search, given what it dropped. -/
structure Layered (g : Graph α) (s : Search α) (dropped : List (α × Nat)) : Prop where
  seen : s.seen.Perm ((placed s dropped).map Prod.fst)
  nodup : s.seen.Nodup
  shortest : ∀ p ∈ placed s dropped, Shortest g p.2 p.1
  dropped : ∀ p ∈ dropped, g.maxLevel < p.2 ∨ g.allowed p.1 = false
  done : ∀ p ∈ s.done, p.2 ≤ g.maxLevel ∧ g.allowed p.1 = true
  start : g.start ∈ s.seen
  seeds : ∀ x ∈ g.seeds, x ∈ s.seen
  closed : ∀ p ∈ s.done, p.2 < g.maxLevel → ∀ y ∈ g.next p.1, y ∈ s.seen
  sorted : s.queue.Pairwise fun p q => p.2 ≤ q.2
  narrow : ∀ p ∈ s.queue, ∀ q ∈ s.queue, q.2 ≤ p.2 + 1
  doneSorted : s.done.Pairwise fun p q => p.2 ≤ q.2
  before : ∀ p ∈ s.done, ∀ q ∈ s.queue, p.2 ≤ q.2
  room : s.done.length ≤ g.maxDone

variable {g : Graph α} {s s' : Search α} {dropped : List (α × Nat)}

theorem Layered.mem_seen (h : Layered g s dropped) {x : α} :
    x ∈ s.seen ↔ ∃ n, (x, n) ∈ placed s dropped := by
  rw [h.seen.mem_iff, List.mem_map]
  constructor
  · rintro ⟨⟨y, n⟩, hmem, rfl⟩
    exact ⟨n, hmem⟩
  · rintro ⟨n, hmem⟩
    exact ⟨(x, n), hmem, rfl⟩

/-- What can be reached has been seen, or something nearer still waits. By induction
on the path. -/
theorem Layered.waits (h : Layered g s dropped) {n : Nat} {x : α} (path : Reaches g n x)
    (hlevel : n ≤ g.maxLevel) : x ∈ s.seen ∨ ∃ p ∈ s.queue, p.2 < n := by
  induction path with
  | start => exact .inl h.start
  | seed hseed => exact .inl (h.seeds _ hseed)
  | @next n x y path hallowed hnext ih =>
      rcases ih (by omega) with hseen | ⟨p, hp, hlt⟩
      · obtain ⟨m, hplaced⟩ := h.mem_seen.mp hseen
        have hleast : m ≤ n := (h.shortest _ hplaced).2 n path
        rcases List.mem_append.mp hplaced with hgone | hqueue
        · rcases List.mem_append.mp hgone with hdone | hdropped
          · exact .inl (h.closed _ hdone (by dsimp only; omega) y hnext)
          · rcases h.dropped _ hdropped with hdeep | hrefused
            · dsimp only at hdeep
              omega
            · rw [hallowed] at hrefused
              contradiction
        · exact .inr ⟨_, hqueue, by dsimp only; omega⟩
      · exact .inr ⟨p, hp, by omega⟩

theorem reaches_of_start {x : α} (h : Reaches g 0 x) : x = g.start := by
  cases h
  rfl

/-- The first of the queue is the nearest that waits. -/
theorem Layered.head (h : Layered g s dropped) {x : α} {level : Nat} {rest : List (α × Nat)}
    (hqueue : s.queue = (x, level) :: rest) :
    ∀ p ∈ rest, level ≤ p.2 ∧ p.2 ≤ level + 1 := by
  intro p hp
  have hsorted := h.sorted
  rw [hqueue] at hsorted
  have hmem : p ∈ s.queue := by
    rw [hqueue]
    exact List.mem_cons_of_mem _ hp
  have hhead : (x, level) ∈ s.queue := by
    rw [hqueue]
    exact List.mem_cons_self ..
  exact ⟨(List.pairwise_cons.mp hsorted).1 p hp, h.narrow _ hhead p hmem⟩

theorem Layered.drop (h : Layered g s dropped) {x : α} {level : Nat} {rest : List (α × Nat)}
    (hqueue : s.queue = (x, level) :: rest)
    (hdrop : g.maxLevel < level ∨ g.allowed x = false) :
    Layered g { s with queue := rest } (dropped ++ [(x, level)]) := by
  have hplaced : placed { s with queue := rest } (dropped ++ [(x, level)]) =
      placed s dropped := by
    unfold placed
    rw [hqueue]
    simp
  have hrest : ∀ p ∈ rest, p ∈ s.queue := by
    intro p hp
    rw [hqueue]
    exact List.mem_cons_of_mem _ hp
  have hsorted := h.sorted
  rw [hqueue] at hsorted
  refine ⟨?_, h.nodup, ?_, ?_, h.done, h.start, h.seeds, h.closed, ?_, ?_, h.doneSorted, ?_,
    h.room⟩
  · rw [hplaced]
    exact h.seen
  · rw [hplaced]
    exact h.shortest
  · intro p hp
    rcases List.mem_append.mp hp with hold | hlast
    · exact h.dropped p hold
    · rw [List.mem_singleton.mp hlast]
      exact hdrop
  · exact (List.pairwise_cons.mp hsorted).2
  · exact fun p hp q hq => h.narrow p (hrest p hp) q (hrest q hq)
  · exact fun p hp q hq => h.before p hp q (hrest q hq)

/-- What was not seen yet and comes next is as near as it can be: something nearer
would wait before the first of the queue. -/
theorem Layered.shortest_next (h : Layered g s dropped) {x y : α} {level : Nat}
    {rest : List (α × Nat)} (hqueue : s.queue = (x, level) :: rest)
    (hlevel : level ≤ g.maxLevel) (hallowed : g.allowed x = true) (hnext : y ∈ g.next x)
    (hnew : y ∉ s.seen) : Shortest g (level + 1) y := by
  have hhead : (x, level) ∈ placed s dropped := by
    unfold placed
    rw [hqueue]
    simp
  refine ⟨.next (h.shortest _ hhead).1 hallowed hnext, ?_⟩
  intro m hm
  apply Nat.lt_of_not_le
  intro hle
  rcases h.waits hm (Nat.le_trans hle hlevel) with hseen | ⟨p, hp, hlt⟩
  · exact hnew hseen
  · rw [hqueue] at hp
    rcases List.mem_cons.mp hp with rfl | hmem
    · dsimp only at hlt
      omega
    · have hbound := h.head hqueue p hmem
      omega

/-- Taking the first of the queue moves it and places what is new. -/
theorem perm_placed_take {x : α} {level : Nat} {rest : List (α × Nat)} {new : List α}
    (hqueue : s.queue = (x, level) :: rest) :
    (placed
      { seen := s.seen ++ new
        queue := rest ++ new.map fun y => (y, level + 1)
        done := s.done ++ [(x, level)] } dropped).Perm
      (placed s dropped ++ new.map fun y => (y, level + 1)) := by
  unfold placed
  rw [hqueue]
  simp only [List.append_assoc, List.cons_append, List.nil_append]
  apply List.Perm.append_left
  exact List.perm_middle.symm

theorem Layered.take (h : Layered g s dropped) {x : α} {level : Nat} {rest : List (α × Nat)}
    {new : List α} (hqueue : s.queue = (x, level) :: rest) (hroom : s.done.length < g.maxDone)
    (hlevel : level ≤ g.maxLevel) (hallowed : g.allowed x = true)
    (hfresh : ∀ y ∈ new, y ∈ g.next x ∧ y ∉ s.seen) (hnodup : new.Nodup)
    (hall : level < g.maxLevel → ∀ y ∈ g.next x, y ∈ s.seen ++ new) :
    Layered g
      { seen := s.seen ++ new
        queue := rest ++ new.map fun y => (y, level + 1)
        done := s.done ++ [(x, level)] } dropped := by
  have hbound := h.head hqueue
  have hrest : ∀ p ∈ rest, p ∈ s.queue := by
    intro p hp
    rw [hqueue]
    exact List.mem_cons_of_mem _ hp
  have hhead : (x, level) ∈ s.queue := by
    rw [hqueue]
    exact List.mem_cons_self ..
  have hsorted := h.sorted
  rw [hqueue] at hsorted
  have hwait : ∀ p ∈ rest ++ new.map fun y => (y, level + 1),
      level ≤ p.2 ∧ p.2 ≤ level + 1 := by
    intro p hp
    rcases List.mem_append.mp hp with hold | hnew
    · exact hbound p hold
    · obtain ⟨y, -, rfl⟩ := List.mem_map.mp hnew
      dsimp only
      omega
  refine ⟨?_, ?_, ?_, h.dropped, ?_, List.mem_append_left _ h.start, ?_, ?_, ?_, ?_, ?_, ?_, ?_⟩
  · have hnames : (placed s dropped ++ new.map fun y => (y, level + 1)).map Prod.fst =
        (placed s dropped).map Prod.fst ++ new := by
      rw [List.map_append, List.map_map]
      congr 1
      exact List.map_id new
    refine List.Perm.trans ?_ ((perm_placed_take hqueue).map Prod.fst).symm
    rw [hnames]
    exact h.seen.append_right new
  · refine List.nodup_append.mpr ⟨h.nodup, hnodup, ?_⟩
    rintro y hy z hz rfl
    exact (hfresh y hz).2 hy
  · intro p hp
    rcases List.mem_append.mp ((perm_placed_take hqueue).mem_iff.mp hp) with hold | hnew
    · exact h.shortest p hold
    · obtain ⟨y, hy, rfl⟩ := List.mem_map.mp hnew
      exact h.shortest_next hqueue hlevel hallowed (hfresh y hy).1 (hfresh y hy).2
  · intro p hp
    rcases List.mem_append.mp hp with hold | hlast
    · exact h.done p hold
    · rw [List.mem_singleton.mp hlast]
      exact ⟨hlevel, hallowed⟩
  · exact fun y hy => List.mem_append_left _ (h.seeds y hy)
  · intro p hp hless y hy
    rcases List.mem_append.mp hp with hold | hlast
    · exact List.mem_append_left _ (h.closed p hold hless y hy)
    · rw [List.mem_singleton.mp hlast] at hless hy
      exact hall hless y hy
  · refine List.pairwise_append.mpr ⟨(List.pairwise_cons.mp hsorted).2, ?_, ?_⟩
    · rw [List.pairwise_map]
      exact List.pairwise_of_forall fun _ _ => Nat.le_refl _
    · intro p hp q hq
      obtain ⟨y, -, rfl⟩ := List.mem_map.mp hq
      exact (hbound p hp).2
  · intro p hp q hq
    have hp' := hwait p hp
    have hq' := hwait q hq
    omega
  · refine List.pairwise_append.mpr ⟨h.doneSorted, List.pairwise_singleton _ _, ?_⟩
    intro p hp q hq
    rw [List.mem_singleton.mp hq]
    exact h.before p hp _ hhead
  · intro p hp q hq
    have hq' := hwait q hq
    rcases List.mem_append.mp hp with hold | hlast
    · have hp' := h.before p hold _ hhead
      dsimp only at hp'
      omega
    · rw [List.mem_singleton.mp hlast]
      exact hq'.1
  · show (s.done ++ [(x, level)]).length ≤ g.maxDone
    rw [List.length_append, List.length_singleton]
    omega

theorem Layered.nodup_done (h : Layered g s dropped) : (s.done.map Prod.fst).Nodup := by
  have hnodup := h.seen.nodup_iff.mp h.nodup
  unfold placed at hnodup
  rw [List.append_assoc, List.map_append] at hnodup
  exact (List.nodup_append.mp hnodup).1

variable [DecidableEq α]

/-- Nothing waits twice. -/
def Search.push (s : Search α) (x : α) (level : Nat) : Search α :=
  if x ∈ s.seen then s
  else { s with seen := s.seen ++ [x], queue := s.queue ++ [(x, level)] }

def Search.pushAll (s : Search α) (xs : List α) (level : Nat) : Search α :=
  xs.foldl (fun s x => s.push x level) s

def initial (g : Graph α) : Search α :=
  Search.pushAll { seen := [g.start], queue := [(g.start, 0)], done := [] } g.seeds 1

/-- The first in the queue is done with, unless there is no more room. -/
def advance (g : Graph α) (s : Search α) : Option (Search α) :=
  match s.queue with
  | [] => none
  | (x, level) :: rest =>
      if g.maxDone ≤ s.done.length then none
      else if g.maxLevel < level ∨ g.allowed x = false then some { s with queue := rest }
      else
        let after : Search α := { s with queue := rest, done := s.done ++ [(x, level)] }
        some (if g.maxLevel ≤ level then after else after.pushAll (g.next x) (level + 1))

theorem advance_nil {g : Graph α} {s : Search α} (hqueue : s.queue = []) :
    advance g s = none := by
  unfold advance
  rw [hqueue]

theorem advance_cons {g : Graph α} {s : Search α} {x : α} {level : Nat} {rest : List (α × Nat)}
    (hqueue : s.queue = (x, level) :: rest) :
    advance g s =
      if g.maxDone ≤ s.done.length then none
      else if g.maxLevel < level ∨ g.allowed x = false then some { s with queue := rest }
      else
        let after : Search α := { s with queue := rest, done := s.done ++ [(x, level)] }
        some (if g.maxLevel ≤ level then after else after.pushAll (g.next x) (level + 1)) := by
  unfold advance
  rw [hqueue]

/-- What comes to the queue: what had not been seen, once each, at one level. -/
structure Pushed (s s' : Search α) (xs : List α) (level : Nat) (new : List α) : Prop where
  seen : s'.seen = s.seen ++ new
  queue : s'.queue = s.queue ++ new.map fun x => (x, level)
  done : s'.done = s.done
  nodup : new.Nodup
  from' : ∀ x ∈ new, x ∈ xs ∧ x ∉ s.seen
  all : ∀ x ∈ xs, x ∈ s'.seen

omit [DecidableEq α] in
theorem Pushed.eq {s s' : Search α} {xs new : List α} {level : Nat}
    (h : Pushed s s' xs level new) :
    s' = {
      seen := s.seen ++ new
      queue := s.queue ++ new.map fun x => (x, level)
      done := s.done } := by
  rcases s' with ⟨seen, queue, done⟩
  obtain rfl : seen = _ := h.seen
  obtain rfl : queue = _ := h.queue
  obtain rfl : done = _ := h.done
  rfl

theorem pushed_pushAll (s : Search α) (xs : List α) (level : Nat) :
    ∃ new, Pushed s (s.pushAll xs level) xs level new := by
  induction xs generalizing s with
  | nil =>
      refine ⟨[], ?_, ?_, rfl, List.nodup_nil, ?_, ?_⟩
      · exact (List.append_nil _).symm
      · exact (List.append_nil _).symm
      · exact fun x hx => by contradiction
      · exact fun x hx => by contradiction
  | cons x rest ih =>
      obtain ⟨new, h⟩ := ih (s.push x level)
      by_cases hseen : x ∈ s.seen
      · have hpush : s.push x level = s := if_pos hseen
        have hall : s.pushAll (x :: rest) level = (s.push x level).pushAll rest level := rfl
        rw [hpush] at h hall
        rw [hall]
        refine ⟨new, h.seen, h.queue, h.done, h.nodup, ?_, ?_⟩
        · exact fun y hy => ⟨List.mem_cons_of_mem _ (h.from' y hy).1, (h.from' y hy).2⟩
        · intro y hy
          rcases List.mem_cons.mp hy with rfl | hmem
          · rw [h.seen]
            exact List.mem_append_left _ hseen
          · exact h.all y hmem
      · have hpush : s.push x level =
            { s with seen := s.seen ++ [x], queue := s.queue ++ [(x, level)] } := if_neg hseen
        have hall : s.pushAll (x :: rest) level = (s.push x level).pushAll rest level := rfl
        rw [hall]
        have hseen' := h.seen
        have hqueue' := h.queue
        have hdone' := h.done
        have hfrom := h.from'
        rw [hpush] at hseen' hqueue' hdone' hfrom
        refine ⟨x :: new, ?_, ?_, ?_, ?_, ?_, ?_⟩
        · rw [hpush, hseen']
          simp
        · rw [hpush, hqueue']
          simp
        · rw [hpush, hdone']
        · refine List.nodup_cons.mpr ⟨?_, h.nodup⟩
          intro hx
          exact (hfrom x hx).2 (by simp)
        · intro y hy
          rcases List.mem_cons.mp hy with rfl | hmem
          · exact ⟨List.mem_cons_self .., hseen⟩
          · refine ⟨List.mem_cons_of_mem _ (hfrom y hmem).1, ?_⟩
            intro hold
            exact (hfrom y hmem).2 (List.mem_append_left _ hold)
        · intro y hy
          rcases List.mem_cons.mp hy with rfl | hmem
          · rw [h.seen, hpush]
            simp
          · exact h.all y hmem

theorem layered_initial (g : Graph α) : Layered g (initial g) [] := by
  obtain ⟨new, h⟩ := pushed_pushAll
    { seen := [g.start], queue := [(g.start, 0)], done := [] } g.seeds 1
  have hseen : (initial g).seen = [g.start] ++ new := h.seen
  have hqueue : (initial g).queue = (g.start, 0) :: new.map fun x => (x, 1) := h.queue
  have hdone : (initial g).done = [] := h.done
  have hplaced : placed (initial g) [] = (g.start, 0) :: new.map fun x => (x, 1) := by
    unfold placed
    rw [hdone, hqueue]
    rfl
  have hnew : ∀ x ∈ new, x ∈ g.seeds ∧ x ≠ g.start := by
    intro x hx
    refine ⟨(h.from' x hx).1, ?_⟩
    rintro rfl
    exact (h.from' _ hx).2 (by simp)
  have hlevels : ∀ p ∈ (initial g).queue, p = (g.start, 0) ∨ p.2 = 1 ∧ p.1 ∈ new := by
    rw [hqueue]
    intro p hp
    rcases List.mem_cons.mp hp with rfl | hp
    · exact .inl rfl
    · obtain ⟨x, hx, rfl⟩ := List.mem_map.mp hp
      exact .inr ⟨rfl, hx⟩
  refine ⟨?_, ?_, ?_, ?_, ?_, ?_, ?_, ?_, ?_, ?_, ?_, ?_, ?_⟩
  · rw [hplaced, hseen, List.map_cons, List.map_map]
    have hid : new.map (Prod.fst ∘ fun x => (x, 1)) = new := by
      rw [show (Prod.fst ∘ fun x : α => (x, 1)) = id from rfl, List.map_id]
    rw [hid]
    exact List.Perm.refl _
  · rw [hseen]
    refine List.nodup_cons.mpr ⟨?_, h.nodup⟩
    exact fun hmem => (hnew _ hmem).2 rfl
  · intro p hp
    rw [hplaced, ← hqueue] at hp
    rcases hlevels p hp with rfl | ⟨hone, hmem⟩
    · exact ⟨.start, fun m _ => Nat.zero_le m⟩
    · rw [hone]
      refine ⟨.seed (hnew _ hmem).1, ?_⟩
      intro m hm
      apply Nat.pos_of_ne_zero
      rintro rfl
      exact (hnew _ hmem).2 (reaches_of_start hm)
  · exact fun p hp => by contradiction
  · rw [hdone]
    exact fun p hp => by contradiction
  · rw [hseen]
    exact List.mem_cons_self ..
  · exact h.all
  · rw [hdone]
    exact fun p hp => by contradiction
  · rw [hqueue]
    refine List.pairwise_cons.mpr ⟨fun p _ => Nat.zero_le _, ?_⟩
    rw [List.pairwise_map]
    exact List.pairwise_of_forall fun _ _ => Nat.le_refl 1
  · intro p hp q hq
    rcases hlevels q hq with rfl | ⟨hone, -⟩
    · exact Nat.zero_le _
    · rw [hone]
      omega
  · rw [hdone]
    exact .nil
  · rw [hdone]
    exact fun p hp => by contradiction
  · rw [hdone]
    exact Nat.zero_le _

theorem layered_advance (h : Layered g s dropped) (hstep : advance g s = some s') :
    ∃ dropped', Layered g s' dropped' := by
  unfold advance at hstep
  split at hstep
  · contradiction
  · rename_i x level rest hqueue
    split at hstep
    · contradiction
    · rename_i hroom
      split at hstep
      · rename_i hdrop
        cases hstep
        exact ⟨_, h.drop hqueue hdrop⟩
      · rename_i hkeep
        obtain ⟨hlevel, hallowed⟩ : level ≤ g.maxLevel ∧ g.allowed x = true := by
          simpa using hkeep
        cases hstep
        refine ⟨dropped, ?_⟩
        split
        · rename_i hlast
          have hnone : ∀ y ∈ ([] : List α), y ∈ g.next x ∧ y ∉ s.seen :=
            fun y hy => by contradiction
          have htake := h.take hqueue (by omega) hlevel hallowed hnone List.nodup_nil
            (fun hless => by omega)
          simpa only [List.append_nil, List.map_nil] using htake
        · rename_i hdeeper
          obtain ⟨new, hpushed⟩ := pushed_pushAll
            { s with queue := rest, done := s.done ++ [(x, level)] } (g.next x) (level + 1)
          rw [hpushed.eq]
          refine h.take hqueue (by omega) hlevel hallowed hpushed.from' hpushed.nodup ?_
          intro _ y hy
          have hseen := hpushed.all y hy
          rwa [hpushed.seen] at hseen

/-- Where a search ends. -/
inductive Ends (g : Graph α) : Search α → Search α → Prop
  | ends {s : Search α} (h : advance g s = none) : Ends g s s
  | goes {s after last : Search α} (h : advance g s = some after) (later : Ends g after last) :
      Ends g s last

theorem layered_ends {last : Search α} (h : Layered g s dropped) (hends : Ends g s last) :
    ∃ dropped', Layered g last dropped' ∧ advance g last = none := by
  induction hends generalizing dropped with
  | ends hnone => exact ⟨dropped, h, hnone⟩
  | goes hstep _ ih =>
      obtain ⟨dropped', h'⟩ := layered_advance h hstep
      exact ih h'

/-- What was near enough and is not done with was left for want of room. -/
theorem Layered.full (h : Layered g s dropped) (hend : advance g s = none) {n : Nat} {x : α}
    (path : Reaches g n x) (hlevel : n ≤ g.maxLevel) (hallowed : g.allowed x = true)
    (hleft : ∀ level, (x, level) ∉ s.done) :
    s.queue ≠ [] ∧ s.done.length = g.maxDone := by
  have hqueue : s.queue ≠ [] := by
    intro hempty
    rcases h.waits path hlevel with hseen | ⟨p, hp, -⟩
    · obtain ⟨m, hplaced⟩ := h.mem_seen.mp hseen
      have hnear : m ≤ n := (h.shortest _ hplaced).2 n path
      unfold placed at hplaced
      rw [hempty, List.append_nil] at hplaced
      rcases List.mem_append.mp hplaced with hdone | hdropped
      · exact hleft m hdone
      · rcases h.dropped _ hdropped with hdeep | hrefused
        · dsimp only at hdeep
          omega
        · rw [hallowed] at hrefused
          contradiction
    · rw [hempty] at hp
      contradiction
  refine ⟨hqueue, Nat.le_antisymm h.room ?_⟩
  unfold advance at hend
  split at hend
  · contradiction
  · split at hend
    · assumption
    · split at hend <;> contradiction

end SeoPlatform.Foundation.QueueSearch
