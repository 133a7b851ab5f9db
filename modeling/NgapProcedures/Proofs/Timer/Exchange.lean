import NgapProcedures.Proofs.Timer.Service

/-! Services that differ in the numbers of their pending timers only. Two timers may be scheduled in
either order: each has its owner and its deadline, and the number of the other. -/

namespace NgapProcedures.TimerService

/-- what a queued timer is told by: its number counts only once it is not pending any more -/
def face (s : TimerService) (t : Timer) : ProcedureId × UInt64 × Option TimerId :=
  (t.owner, t.deadline, if s.isPending t.id then none else some t.id)

def deadlines (s : TimerService) : List (ProcedureId × UInt64) :=
  (s.queue.toList.filter fun t => s.isPending t.id).map fun t => (t.owner, t.deadline)

structure Renumbered (s s' : TimerService) : Prop where
  tick : s.tick = s'.tick
  now : s.now = s'.now
  nextId : s.nextId = s'.nextId
  live : s.live = s'.live
  queue : (s.queue.toList.map s.face).Perm (s'.queue.toList.map s'.face)

namespace Renumbered

variable {s s' s'' : TimerService}

theorem refl (s : TimerService) : s.Renumbered s := ⟨rfl, rfl, rfl, rfl, .refl _⟩

theorem trans (h : s.Renumbered s') (h' : s'.Renumbered s'') : s.Renumbered s'' :=
  ⟨h.tick.trans h'.tick, h.now.trans h'.now, h.nextId.trans h'.nextId, h.live.trans h'.live,
    h.queue.trans h'.queue⟩

theorem deadlines (h : s.Renumbered s') : s.deadlines.Perm s'.deadlines := by
  -- a pending timer is one whose face shows no number
  have hface (s : TimerService) : s.deadlines = (s.queue.toList.map s.face).filterMap fun x =>
      if x.2.2.isNone then some (x.1, x.2.1) else none := by
    rw [TimerService.deadlines, List.filterMap_map]
    induction s.queue.toList with
    | nil => rfl
    | cons t rest ih =>
      cases hp : s.isPending t.id with
      | true => simp [face, hp, ih]
      | false => simp [face, hp, ih]
  rw [hface s, hface s']
  exact h.queue.filterMap _

end Renumbered

def mask (n : TimerId) (x : ProcedureId × UInt64 × Option TimerId) :
    ProcedureId × UInt64 × Option TimerId :=
  (x.1, x.2.1, x.2.2.filter fun k => k ≠ n)

theorem face_schedule (s : TimerService) (owner : ProcedureId) (delay : Duration) (t : Timer) :
    (s.schedule owner delay).2.face t = mask s.nextId (s.face t) := by
  have hpending : (s.schedule owner delay).2.isPending t.id =
      (decide (t.id = s.nextId) || s.isPending t.id) := Table.contains_insert ..
  unfold face mask
  rw [hpending]
  cases s.isPending t.id with
  | true => simp
  | false => by_cases he : t.id = s.nextId <;> simp [he, Option.filter]

/-- another timer is queued, and whoever has its number is pending as well -/
theorem faces_schedule (s : TimerService) (owner : ProcedureId) (delay : Duration) :
    ((s.schedule owner delay).2.queue.toList.map (s.schedule owner delay).2.face).Perm
      ((owner, (s.scheduled owner (s.ticksFor delay)).deadline, none) ::
        (s.queue.toList.map s.face).map (mask s.nextId)) := by
  have hperm : (s.schedule owner delay).2.queue.toList.Perm
      (s.scheduled owner (s.ticksFor delay) :: s.queue.toList) :=
    Heap.toList_insert_perm Timer.before _ _
  have hnew : mask s.nextId (s.face (s.scheduled owner (s.ticksFor delay))) =
      (owner, (s.scheduled owner (s.ticksFor delay)).deadline, none) := by
    unfold mask face
    split <;> simp [scheduled]
  have hface : (s.schedule owner delay).2.face = mask s.nextId ∘ s.face :=
    funext (s.face_schedule owner delay)
  refine (hperm.map _).trans (.of_eq ?_)
  rw [List.map_cons, List.map_map, hface, Function.comp_apply, hnew]

theorem Renumbered.schedule {s s' : TimerService} (h : s.Renumbered s') (owner : ProcedureId)
    (delay : Duration) : (s.schedule owner delay).2.Renumbered (s'.schedule owner delay).2 where
  tick := h.tick
  now := h.now
  nextId := congrArg (· + 1) h.nextId
  live := by simp [TimerService.schedule, scheduleTicks, h.live, h.nextId]
  queue := by
    refine (s.faces_schedule owner delay).trans (.trans ?_ (s'.faces_schedule owner delay).symm)
    simp only [scheduled, ticksFor, h.tick, h.now, h.nextId]
    exact (h.queue.map _).cons _

/-- two timers have their owners and deadlines whichever is scheduled first -/
theorem schedule_comm (s : TimerService) (owner owner' : ProcedureId) (delay delay' : Duration) :
    ((s.schedule owner delay).2.schedule owner' delay').2.Renumbered
      ((s.schedule owner' delay').2.schedule owner delay).2 where
  tick := rfl
  now := rfl
  nextId := rfl
  live := rfl
  queue := by
    refine (faces_schedule _ owner' delay').trans (.trans ?_ (faces_schedule _ owner delay).symm)
    have hfirst (owner : ProcedureId) (delay : Duration) (x : ProcedureId × UInt64 × Option TimerId) :=
      ((s.faces_schedule owner delay).map (mask (s.nextId + 1))).cons x
    refine (hfirst owner delay _).trans (.trans ?_ (hfirst owner' delay' _).symm)
    exact .swap ..

end NgapProcedures.TimerService
