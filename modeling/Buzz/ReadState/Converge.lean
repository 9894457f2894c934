import Buzz.Library.Register
import Buzz.ReadState.Manager

/-! The clients of one user, whatever is marked, published and delivered in whatever order. -/

namespace Buzz.ReadState

open Library Library.HighWater List

structure Clients where
  managers : ℕ → ReadStateManager
  published : List ReadStateEvent

/-- Blobs may be delivered at any time. -/
inductive ClientStep
  | mark (client : ℕ) (contextId : String) (unixTimestamp now : ℕ)
  | seed (client : ℕ) (contextId : String) (unixTimestamp : ℕ)
  | finishInitialize (client : ℕ)
  | incoming (client index : ℕ)
  | merge (client index : ℕ)
  | settle (client : ℕ) (indices : List ℕ) (freshSlotId : String)
  | publish (client now : ℕ) (freshIds : ℕ → String) (outcomes : ℕ → PublishOutcome)

structure Opening where
  clientId : String
  slotId : String
  extraSlotIds : List String
  stored : StoredReadState

namespace Clients

variable (self : Clients)

def start (openings : ℕ → Opening) : Clients where
  managers client :=
    .hydrate (openings client).clientId (openings client).slotId (openings client).extraSlotIds
      (openings client).stored
  published := []

def setManager (client : ℕ) (manager : ReadStateManager) : Clients :=
  { self with managers := fun other => if other = client then manager else self.managers other }

def step : ClientStep → Clients
  | .mark client contextId unixTimestamp now =>
    self.setManager client ((self.managers client).markContextRead contextId unixTimestamp now)
  | .seed client contextId unixTimestamp =>
    self.setManager client ((self.managers client).seedContextRead contextId unixTimestamp)
  | .finishInitialize client => self.setManager client (self.managers client).finishInitialize
  | .incoming client index =>
    match self.published[index]? with
    | none => self
    | some event => self.setManager client ((self.managers client).handleIncomingEvent event)
  | .merge client index =>
    match self.published[index]? with
    | none => self
    | some event => self.setManager client ((self.managers client).mergeEvent event)
  | .settle client indices freshSlotId =>
    self.setManager client
      ((self.managers client).settle (indices.filterMap fun index => self.published[index]?)
        freshSlotId)
  | .publish client now freshIds outcomes =>
    if (self.managers client).scheduled then
      match { self.managers client with scheduled := false }.publish now freshIds outcomes with
      | (manager, stored) =>
        { self with published := self.published ++ stored }.setManager client manager
    else self

def run (steps : List ClientStep) : Clients := steps.foldl step self

def markersOf (event : Option ReadStateEvent) : List (String × ℕ) :=
  match event.bind parseReadStateEvent with
  | none => []
  | some parsed => parsed.blob.contexts.entries

def offers (client : ℕ) : ClientStep → List (String × ℕ)
  | .mark other contextId unixTimestamp _ => if other = client then [(contextId, unixTimestamp)] else []
  | .seed other contextId unixTimestamp => if other = client then [(contextId, unixTimestamp)] else []
  | .incoming other index => if other = client then markersOf self.published[index]? else []
  | .merge other index => if other = client then markersOf self.published[index]? else []
  | .finishInitialize _ | .settle _ _ _ | .publish _ _ _ _ => []

def markers (state : Clients) (client : ℕ) : List ClientStep → List (String × ℕ)
  | [] => []
  | label :: rest => state.offers client label ++ (state.step label).markers client rest

def own (client : ℕ) (contextId : String) : Option ℕ :=
  (self.managers client).getOwnTimestamp contextId

end Clients

section manager

variable {self : ReadStateManager} {contextId other : String} {unixTimestamp now createdAt : ℕ}
  {event : ReadStateEvent} {entries : List (String × ℕ)}

def timesOf (contextId : String) (markers : List (String × ℕ)) : List ℕ :=
  (markers.filter (·.1 = contextId)).map Prod.snd

theorem mem_timesOf {time : ℕ} : time ∈ timesOf contextId entries ↔ (contextId, time) ∈ entries := by
  unfold timesOf
  rw [mem_map]
  constructor
  · rintro ⟨marker, member, rfl⟩
    obtain ⟨isMarker, same⟩ := mem_filter.mp member
    rw [← of_decide_eq_true same]
    exact isMarker
  · intro member
    exact ⟨_, mem_filter.mpr ⟨member, decide_eq_true rfl⟩, rfl⟩

theorem timesOf_append {more : List (String × ℕ)} :
    timesOf contextId (entries ++ more) = timesOf contextId entries ++ timesOf contextId more := by
  unfold timesOf
  rw [filter_append, map_append]

def raised (held : Option ℕ) (contextId : String) (entries : List (String × ℕ)) : Option ℕ :=
  (timesOf contextId entries).foldl raise held

variable {held : Option ℕ}

theorem raised_nil : raised held contextId [] = held := rfl

theorem raised_append {more : List (String × ℕ)} :
    raised held contextId (entries ++ more) = raised (raised held contextId entries) contextId more := by
  unfold raised
  rw [timesOf_append, foldl_append]

variable {entry : String × ℕ}

theorem raised_cons :
    raised held contextId (entry :: entries) =
      raised (if entry.1 = contextId then raise held entry.2 else held) contextId entries := by
  unfold raised timesOf
  rw [filter_cons]
  split
  next same =>
    rw [if_pos (of_decide_eq_true same)]
    rfl
  next differs => rw [if_neg (by simpa using differs)]

variable {contexts : Contexts}

theorem get_advance {time : ℕ} :
    (if time ≤ (contexts.get contextId).getD 0 then contexts
      else contexts.set contextId time).get other =
        if contextId = other then raise (contexts.get other) time else contexts.get other := by
  unfold raise level
  split
  next low =>
    split
    next same => rw [if_pos (same ▸ low)]
    · rfl
  next high =>
    rw [Ordered.get_set]
    split
    next same => rw [if_pos same.symm, if_neg (same ▸ high)]
    next differs => rw [if_neg (Ne.symm differs)]

theorem raised_single : raised held other [entry] =
    if entry.1 = other then raise held entry.2 else held := raised_cons

variable {publishable : Bool}

theorem effectiveState_advanceContext :
    (self.advanceContext contextId unixTimestamp publishable).effectiveState =
      if unixTimestamp ≤ (self.effectiveState.get contextId).getD 0 then self.effectiveState
      else self.effectiveState.set contextId unixTimestamp := by
  unfold ReadStateManager.advanceContext
  split
  · split <;> rfl
  · dsimp only
    split <;> rfl

theorem own_advanceContext :
    (self.advanceContext contextId unixTimestamp publishable).getOwnTimestamp other =
      raised (self.getOwnTimestamp other) other [(contextId, unixTimestamp)] := by
  unfold ReadStateManager.getOwnTimestamp
  rw [effectiveState_advanceContext, get_advance, raised_single]

theorem effectiveState_applyRemote :
    (self.applyRemote createdAt entry).1.effectiveState =
      if entry.2 ≤ (self.effectiveState.get entry.1).getD 0 then self.effectiveState
      else self.effectiveState.set entry.1 entry.2 := by
  change (if max ((self.effectiveState.get entry.1).getD 0) entry.2 =
      (self.effectiveState.get entry.1).getD 0 then self.effectiveState
    else self.effectiveState.set entry.1 (max ((self.effectiveState.get entry.1).getD 0) entry.2)) = _
  split
  next same => rw [if_pos (max_eq_left_iff.mp same)]
  next differs =>
    have high : ¬ entry.2 ≤ (self.effectiveState.get entry.1).getD 0 :=
      fun low => differs (max_eq_left low)
    rw [if_neg high, max_eq_right (le_of_lt (not_le.mp high))]

theorem own_applyRemote :
    (self.applyRemote createdAt entry).1.getOwnTimestamp other =
      raised (self.getOwnTimestamp other) other [entry] := by
  unfold ReadStateManager.getOwnTimestamp
  rw [effectiveState_applyRemote, get_advance, raised_single]

variable {state : ReadStateManager × Bool}

theorem own_incomingContext :
    (ReadStateManager.incomingContext createdAt state entry).1.getOwnTimestamp other =
      raised (state.1.getOwnTimestamp other) other [entry] := by
  calc
    _ = (state.1.applyRemote createdAt entry).1.getOwnTimestamp other := by
      unfold ReadStateManager.incomingContext
      dsimp only
      split <;> rfl
    _ = _ := own_applyRemote

theorem own_mergeContext :
    (ReadStateManager.mergeContext createdAt self entry).getOwnTimestamp other =
      raised (self.getOwnTimestamp other) other [entry] := by
  calc
    _ = (self.applyRemote createdAt entry).1.getOwnTimestamp other := by
      unfold ReadStateManager.mergeContext
      dsimp only
      split <;> rfl
    _ = _ := own_applyRemote

theorem own_foldl_incoming :
    (entries.foldl (ReadStateManager.incomingContext createdAt) state).1.getOwnTimestamp other =
      raised (state.1.getOwnTimestamp other) other entries := by
  induction entries generalizing state with
  | nil => rfl
  | cons entry rest ih =>
    rw [foldl_cons, ih, own_incomingContext, ← raised_append]
    rfl

theorem own_foldl_merge :
    (entries.foldl (ReadStateManager.mergeContext createdAt) self).getOwnTimestamp other =
      raised (self.getOwnTimestamp other) other entries := by
  induction entries generalizing self with
  | nil => rfl
  | cons entry rest ih =>
    rw [foldl_cons, ih, own_mergeContext, ← raised_append]
    rfl

theorem own_handleIncomingEvent :
    (self.handleIncomingEvent event).getOwnTimestamp other =
      raised (self.getOwnTimestamp other) other (Clients.markersOf (some event)) := by
  unfold ReadStateManager.handleIncomingEvent Clients.markersOf
  rw [Option.bind_some]
  cases parseReadStateEvent event with
  | none => rfl
  | some parsed =>
    dsimp only
    split
    · exact own_foldl_incoming
    · exact own_foldl_incoming

theorem own_mergeEvent :
    (self.mergeEvent event).getOwnTimestamp other =
      raised (self.getOwnTimestamp other) other (Clients.markersOf (some event)) := by
  unfold ReadStateManager.mergeEvent Clients.markersOf
  rw [Option.bind_some]
  cases parseReadStateEvent event with
  | none => rfl
  | some parsed => exact own_foldl_merge

theorem effectiveState_settle {events : List ReadStateEvent} {freshSlotId : String} :
    (self.settle events freshSlotId).effectiveState = self.effectiveState := by
  unfold ReadStateManager.settle
  dsimp only
  split <;> rfl

theorem effectiveState_finishInitialize :
    self.finishInitialize.effectiveState = self.effectiveState := by
  unfold ReadStateManager.finishInitialize
  split
  · rfl
  · split <;> rfl

section publish

variable {freshIds : ℕ → String} {outcomes : ℕ → PublishOutcome}

theorem effectiveState_publishOneSlot {outcome : PublishOutcome} {slot : String × Contexts} :
    (self.publishOneSlot now outcome slot).1.effectiveState = self.effectiveState := by
  cases outcome <;> rfl

theorem effectiveState_publishSlots {slots : List (String × Contexts)} :
    (self.publishSlots now outcomes slots).1.effectiveState = self.effectiveState := by
  have each (numbered : List ((String × Contexts) × ℕ)) (state : ReadStateManager × List ReadStateEvent) :
      (numbered.foldl (fun state slot =>
        match state.1.publishOneSlot now (outcomes slot.2) slot.1 with
        | (next, stored) => (next, state.2 ++ stored)) state).1.effectiveState =
          state.1.effectiveState := by
    induction numbered generalizing state with
    | nil => rfl
    | cons slot rest ih =>
      rw [foldl_cons, ih]
      exact effectiveState_publishOneSlot
  exact each _ _

theorem effectiveState_publishSplitSlots :
    (self.publishSplitSlots now freshIds outcomes).1.effectiveState = self.effectiveState := by
  have split : (self.splitContextsIntoSlots freshIds).1.effectiveState = self.effectiveState := by
    unfold ReadStateManager.splitContextsIntoSlots
    dsimp only
    split <;> rfl
  unfold ReadStateManager.publishSplitSlots
  split
  next next slots =>
    rw [slots] at split
    exact split
  next next slots isSplit =>
    rw [isSplit] at split
    split
    · exact split
    · exact effectiveState_publishSlots.trans split

theorem effectiveState_publish :
    (self.publish now freshIds outcomes).1.effectiveState = self.effectiveState := by
  unfold ReadStateManager.publish
  split
  · exact effectiveState_publishSplitSlots
  · dsimp only
    split
    · split
      · rfl
      · exact effectiveState_publishOneSlot
    · split
      · rfl
      · exact effectiveState_publishOneSlot

end publish

theorem get_mergeLocalStorageKey :
    (mergeLocalStorageKey entries).get other = raised none other entries := by
  have each (contexts : Contexts) : (entries.foldl (fun contexts entry =>
      if (contexts.get entry.1).getD 0 < entry.2 then contexts.set entry.1 entry.2 else contexts)
        contexts).get other = raised (contexts.get other) other entries := by
    induction entries generalizing contexts with
    | nil => rfl
    | cons entry rest ih =>
      rw [foldl_cons, ih, raised_cons, ← get_advance]
      congr 2
      split
      next high => rw [if_neg (not_le.mpr high)]
      next low => rw [if_pos (not_lt.mp low)]
  exact each .empty

theorem get_setAll (distinct : (entries.map Prod.fst).Nodup) :
    (setAll contexts entries).get other =
      (Ordered.getEntry entries other).or (contexts.get other) := by
  unfold setAll
  induction entries generalizing contexts with
  | nil => rfl
  | cons entry rest ih =>
    rw [map_cons, nodup_cons] at distinct
    rw [foldl_cons, ih distinct.2, Ordered.get_set, Ordered.getEntry]
    by_cases same : entry.1 = other
    · rw [if_pos same, if_pos same.symm, Ordered.getEntry_eq_none (same ▸ distinct.1)]
      rfl
    · rw [if_neg same, if_neg (Ne.symm same)]

theorem own_hydrate {clientId slotId : String} {extraSlotIds : List String} {stored : StoredReadState} :
    (ReadStateManager.hydrate clientId slotId extraSlotIds stored).getOwnTimestamp other =
      raised none other stored.contexts := by
  rw [← get_mergeLocalStorageKey]
  change (setAll .empty (mergeLocalStorageKey stored.contexts).entries).get other = _
  rw [get_setAll (mergeLocalStorageKey stored.contexts).distinct, Ordered.get_empty, Option.or_none]
  rfl

end manager

namespace Clients

variable {self : Clients} {label : ClientStep} {steps more : List ClientStep} {client other : ℕ}
  {contextId : String} {manager : ReadStateManager}

theorem own_setManager :
    (self.setManager other manager).own client contextId =
      if client = other then manager.getOwnTimestamp contextId else self.own client contextId := by
  unfold own setManager
  dsimp only
  split <;> rfl

theorem own_offered {offered : List (String × ℕ)} (raises : manager.getOwnTimestamp contextId =
      raised (self.own other contextId) contextId offered) :
    (self.setManager other manager).own client contextId =
      raised (self.own client contextId) contextId (if other = client then offered else []) := by
  rw [own_setManager]
  split
  next same => rw [if_pos same.symm, raises, same]
  next differs =>
    rw [if_neg (Ne.symm differs)]
    rfl

theorem own_kept (same : manager.effectiveState = (self.managers other).effectiveState) :
    (self.setManager other manager).own client contextId = self.own client contextId := by
  rw [own_setManager]
  split
  next isClient =>
    unfold own ReadStateManager.getOwnTimestamp
    rw [same, isClient]
  · rfl

theorem own_step : (self.step label).own client contextId =
    raised (self.own client contextId) contextId (self.offers client label) := by
  cases label with
  | mark other markedId unixTimestamp now | seed other seededId unixTimestamp =>
    exact own_offered own_advanceContext
  | finishInitialize other => exact own_kept effectiveState_finishInitialize
  | settle other indices freshSlotId => exact own_kept effectiveState_settle
  | incoming other index =>
    cases found : self.published[index]? with
    | none => simp [step, offers, found, markersOf, raised, timesOf]
    | some event =>
      simp only [step, offers, found]
      exact own_offered own_handleIncomingEvent
  | merge other index =>
    cases found : self.published[index]? with
    | none => simp [step, offers, found, markersOf, raised, timesOf]
    | some event =>
      simp only [step, offers, found]
      exact own_offered own_mergeEvent
  | publish other now freshIds outcomes =>
    rw [offers, raised_nil, step]
    split
    · rw [own_setManager]
      split
      next isClient =>
        unfold own ReadStateManager.getOwnTimestamp
        rw [effectiveState_publish, isClient]
      · rfl
    · rfl

theorem own_run : (self.run steps).own client contextId =
    raised (self.own client contextId) contextId (self.markers client steps) := by
  unfold run
  induction steps generalizing self with
  | nil => rfl
  | cons label rest ih => rw [foldl_cons, ih, own_step, markers, raised_append]

section openings

variable {openings : ℕ → Opening}

/-- From local storage and the markers of the run. -/
def history (openings : ℕ → Opening) (client : ℕ) (steps : List ClientStep) : List (String × ℕ) :=
  (openings client).stored.contexts ++ (start openings).markers client steps

theorem own_start_run : ((start openings).run steps).own client contextId =
    raised none contextId (history openings client steps) := by
  have opened : (start openings).own client contextId =
      raised none contextId (openings client).stored.contexts := own_hydrate
  rw [own_run, opened, ← raised_append, history]

theorem proper_own : Proper (((start openings).run steps).own client contextId) := by
  rw [own_start_run]
  exact Proper.raiseAll nofun

theorem greatest_own : IsGreatest {time | time = 0 ∨ (contextId, time) ∈ history openings client steps}
    ((((start openings).run steps).own client contextId).getD 0) := by
  have lowest : IsGreatest {0} (level (none : Option ℕ)) := isGreatest_singleton
  have times : {time | time = 0 ∨ (contextId, time) ∈ history openings client steps} =
      {0} ∪ {time | time ∈ timesOf contextId (history openings client steps)} := by
    ext time
    rw [Set.mem_union, Set.mem_ofPred_eq, Set.mem_ofPred_eq, mem_timesOf]
    rfl
  rw [own_start_run, times]
  exact isGreatest_raiseAll lowest

/-- A marker is the greatest set or received; clients with one history agree. -/
theorem read_markers_converge (openings : ℕ → Opening) (steps : List ClientStep) :
    (∀ client contextId,
      IsGreatest {time | time = 0 ∨ (contextId, time) ∈ history openings client steps}
        ((((start openings).run steps).own client contextId).getD 0)) ∧
    (∀ client contextId more,
      (((start openings).run steps).own client contextId).getD 0 ≤
        (((start openings).run (steps ++ more)).own client contextId).getD 0) ∧
    (∀ client other,
      (∀ marker, marker ∈ history openings client steps ↔ marker ∈ history openings other steps) →
        ∀ contextId, ((start openings).run steps).own client contextId =
          ((start openings).run steps).own other contextId) := by
  refine ⟨fun client contextId => greatest_own, fun client contextId more => ?_,
    fun client other same contextId => ?_⟩
  · have later : ((start openings).run (steps ++ more)).own client contextId =
        raised (((start openings).run steps).own client contextId) contextId
          (((start openings).run steps).markers client more) := by
      rw [← own_run, run, run, run, foldl_append]
    rw [later]
    exact level_le_raiseAll
  · apply proper_own.eq_of_level proper_own
    apply IsGreatest.unique greatest_own
    have sets : {time | time = 0 ∨ (contextId, time) ∈ history openings client steps} =
        {time | time = 0 ∨ (contextId, time) ∈ history openings other steps} := by
      ext time
      rw [Set.mem_ofPred_eq, Set.mem_ofPred_eq, same]
    rw [sets]
    exact greatest_own

end openings

def emptyOpening (client : ℕ) : Opening where
  clientId := Nat.repr client
  slotId := "slot-" ++ Nat.repr client
  extraSlotIds := []
  stored := ⟨[], [], .empty⟩

/-- Both are told of the marker, the other one twice. -/
def exchange : List ClientStep :=
  [.mark 0 "channel" 5 100, .publish 0 105 (fun _ => "") (fun _ => .unanswered), .incoming 1 0,
    .incoming 0 0, .merge 1 0]

theorem exchange_agrees :
    ((start emptyOpening).run exchange).own 1 "channel" = some 5 ∧
      ∀ contextId, ((start emptyOpening).run exchange).own 0 contextId =
        ((start emptyOpening).run exchange).own 1 contextId := by
  refine ⟨by decide +kernel, (read_markers_converge emptyOpening exchange).2.2 0 1 ?_⟩
  have one : history emptyOpening 0 exchange = [("channel", 5), ("channel", 5)] := by decide +kernel
  have other : history emptyOpening 1 exchange = [("channel", 5), ("channel", 5)] := by decide +kernel
  intro marker
  rw [one, other]

end Clients

end Buzz.ReadState
