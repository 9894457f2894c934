import Buzz.Json

/-! The observer's events, and the coalescer that joins the chunks of one message. -/

namespace Buzz.Observer

open List Option
open Json (asStr field)

structure ObserverEvent where
  seq : ℕ
  timestamp : String
  kind : String
  agentIndex : Option ℕ
  channelId : Option String
  sessionId : Option String
  turnId : Option String
  startedAt : Option String
  payload : Json Number

structure ObserverChunkKey where
  updateType : String
  messageId : Option String
  channelId : Option String
  sessionId : Option String
  turnId : Option String
  agentIndex : Option ℕ
  deriving DecidableEq

def observerChunkMaxTextBytes : ℕ := 60000

/-- `Value::get` of a key. -/
def get (value : Json Number) (key : String) : Option (Json Number) :=
  match value with
  | .object entries => field entries key
  | _ => none

def observerChunkKeyAndText (event : ObserverEvent) : Option (ObserverChunkKey × String) := do
  let update ← (get event.payload "params").bind (get · "update")
  let updateType ← (get update "sessionUpdate").bind asStr
  if updateType ∈ ["agent_message_chunk", "user_message_chunk", "agent_thought_chunk"] then
    let text ← ((get update "content").bind (get · "text")).bind asStr
    let messageId := (get update "messageId").bind asStr
    some (⟨updateType, messageId, event.channelId, event.sessionId, event.turnId,
      event.agentIndex⟩, text)
  else none

/-- `Value::get_mut` of a key, and a change of what is found. -/
def getMut (key : String) (change : Json Number → Json Number) : Json Number → Json Number
  | .object entries =>
    .object (entries.map fun entry => (entry.1, if entry.1 = key then change entry.2 else entry.2))
  | value => value

def insertText (text : String) : Json Number → Json Number
  | .object entries =>
    match field entries "text" with
    | some _ => getMut "text" (fun _ => .string text) (.object entries)
    | none => .object (Json.sortByKey (· ≤ ·) (("text", .string text) :: entries))
  | content => content

def setObserverChunkText (text : String) : Json Number → Json Number :=
  getMut "params" (getMut "update" (getMut "content" (insertText text)))

structure PendingObserverChunk where
  key : ObserverChunkKey
  event : ObserverEvent
  text : String

abbrev ObserverChunkCoalescer := List PendingObserverChunk

namespace ObserverChunkCoalescer

def emitted (pending : PendingObserverChunk) : ObserverEvent :=
  { pending.event with payload := setObserverChunkText pending.text pending.event.payload }

def flush (self : ObserverChunkCoalescer) : List ObserverEvent × ObserverChunkCoalescer :=
  (self.map emitted, [])

def append (key : ObserverChunkKey) (event : ObserverEvent) (text : String) :
    ObserverChunkCoalescer → ObserverChunkCoalescer
  | [] => []
  | pending :: rest =>
    if pending.key = key then
      { pending with
        text := pending.text ++ text
        event := { pending.event with seq := event.seq, timestamp := event.timestamp } } :: rest
    else pending :: append key event text rest

def ingest (self : ObserverChunkCoalescer) (event : ObserverEvent) :
    List ObserverEvent × ObserverChunkCoalescer :=
  match observerChunkKeyAndText event with
  | none => (self.flush.1 ++ [event], [])
  | some (key, text) =>
    match self.find? fun pending => pending.key = key with
    | some pending =>
      if observerChunkMaxTextBytes ≤ pending.text.utf8ByteSize + text.utf8ByteSize then
        (self.flush.1, [⟨key, event, text⟩])
      else ([], self.append key event text)
    | none => ([], self ++ [⟨key, event, text⟩])

end ObserverChunkCoalescer

inductive Call
  | ingest (event : ObserverEvent)
  | flush

def Call.run (self : ObserverChunkCoalescer) : Call → List ObserverEvent × ObserverChunkCoalescer
  | .ingest event => self.ingest event
  | .flush => self.flush

def runAll (self : ObserverChunkCoalescer) : List Call → List ObserverEvent × ObserverChunkCoalescer
  | [] => ([], self)
  | call :: calls =>
    let next := runAll (call.run self).2 calls
    ((call.run self).1 ++ next.1, next.2)

def ingested : Call → Option ObserverEvent
  | .ingest event => some event
  | .flush => none

variable {key : ObserverChunkKey} {event : ObserverEvent} {text : String}

section texts

variable {change : Json Number → Json Number}

theorem lookup_map (wanted key : String) (entries : List (String × Json Number)) :
    (entries.map fun entry => (entry.1, if entry.1 = key then change entry.2 else entry.2)).lookup
        wanted = (entries.lookup wanted).map fun value => if wanted = key then change value else value := by
  induction entries with
  | nil => rfl
  | cons entry rest ih =>
    rcases entry with ⟨name, value⟩
    simp only [map_cons, lookup_cons]
    cases same : wanted == name with
    | true => simp [beq_iff_eq.mp same]
    | false => exact ih

theorem get_getMut (value : Json Number) (wanted key : String) :
    get (getMut key change value) wanted =
      (get value wanted).map fun found => if wanted = key then change found else found := by
  cases value with
  | object entries => exact lookup_map wanted key entries
  | _ => rfl

theorem get_insertText {content old : Json Number} (found : get content "text" = some old) :
    get (insertText text content) "text" = some (.string text) := by
  cases content with
  | object entries =>
    have present : field entries "text" = some old := found
    simp only [insertText, present]
    rw [get_getMut, found]
    rfl
  | _ => cases found

/-- The event of a chunk with another text is a chunk of the same key. -/
theorem keyAndText_set {old : String} (read : observerChunkKeyAndText event = some (key, old)) :
    observerChunkKeyAndText { event with payload := setObserverChunkText text event.payload } =
      some (key, text) := by
  have found : ((get (setObserverChunkText text event.payload) "params").bind (get · "update")) =
      ((get event.payload "params").bind (get · "update")).map
        (getMut "content" (insertText text)) := by
    rw [setObserverChunkText, get_getMut]
    cases get event.payload "params" with
    | none => rfl
    | some params =>
      simp only [map_some, bind_some, if_true]
      rw [get_getMut]
      simp
  unfold observerChunkKeyAndText at read ⊢
  simp only [found]
  cases isUpdate : (get event.payload "params").bind (get · "update") with
  | none => simp [isUpdate] at read
  | some update =>
    have other (name : String) (differs : name ≠ "content") :
        get (getMut "content" (insertText text) update) name = get update name := by
      rw [get_getMut]
      simp [differs]
    have chunk : get (getMut "content" (insertText text) update) "content" =
        (get update "content").map (insertText text) := by
      rw [get_getMut]
      simp
    simp only [isUpdate, bind_eq_bind, bind_some] at read
    simp only [map_some, bind_eq_bind, bind_some, chunk,
      other "sessionUpdate" (by decide), other "messageId" (by decide)]
    cases isType : (get update "sessionUpdate").bind asStr with
    | none => simp [isType] at read
    | some updateType =>
      simp only [isType, bind_some] at read ⊢
      split at read
      next listed =>
        rcases bind_eq_some_iff.mp read with ⟨before, isText, rest⟩
        rcases bind_eq_some_iff.mp isText with ⟨value, isValue, -⟩
        rcases bind_eq_some_iff.mp isValue with ⟨content, isContent, isOld⟩
        cases rest
        rw [if_pos listed, isContent]
        simp only [map_some, bind_some, get_insertText isOld]
        rfl
      · cases read

end texts

section streams

variable {self next : ObserverChunkCoalescer} {calls : List Call}

def textOf (key : ObserverChunkKey) (event : ObserverEvent) : List Char :=
  match observerChunkKeyAndText event with
  | some (own, text) => if own = key then text.toList else []
  | none => []

def texts (key : ObserverChunkKey) (events : List ObserverEvent) : List Char :=
  events.flatMap (textOf key)

def others (events : List ObserverEvent) : List ObserverEvent :=
  events.filter fun event => (observerChunkKeyAndText event).isNone

def held (key : ObserverChunkKey) (self : ObserverChunkCoalescer) : List Char :=
  self.flatMap fun pending => if pending.key = key then pending.text.toList else []

/-- Every key waits once, with an event that is a chunk of it. -/
structure Sound (waiting : ObserverChunkCoalescer) : Prop where
  keys : (waiting.map PendingObserverChunk.key).Nodup
  chunks : ∀ pending ∈ waiting, ∃ old, observerChunkKeyAndText pending.event = some (pending.key, old)

theorem sound_nil : Sound [] := ⟨nodup_nil, nofun⟩

theorem sound_single {old : String} (read : observerChunkKeyAndText event = some (key, old)) :
    Sound [⟨key, event, text⟩] := by
  refine ⟨nodup_singleton key, fun pending member => ?_⟩
  rw [mem_singleton.mp member]
  exact ⟨old, read⟩

theorem texts_flush (sound : Sound self) : texts key self.flush.1 = held key self := by
  simp only [texts, held, ObserverChunkCoalescer.flush, flatMap_map]
  apply flatMap_congr
  intro pending member
  rcases sound.chunks pending member with ⟨old, read⟩
  simp [textOf, ObserverChunkCoalescer.emitted, keyAndText_set read]

theorem others_flush (sound : Sound self) : others self.flush.1 = [] := by
  rw [others, filter_eq_nil_iff]
  intro emitted member
  rcases mem_map.mp member with ⟨pending, isPending, rfl⟩
  rcases sound.chunks pending isPending with ⟨old, read⟩
  simp [ObserverChunkCoalescer.emitted, keyAndText_set read]

theorem held_of_not_mem (absent : key ∉ self.map PendingObserverChunk.key) : held key self = [] := by
  rw [held, flatMap_eq_nil_iff]
  intro pending member
  exact if_neg fun same => absent (mem_map.mpr ⟨pending, member, same⟩)

theorem append_keys : (self.append key event text).map PendingObserverChunk.key =
    self.map PendingObserverChunk.key := by
  induction self with
  | nil => rfl
  | cons pending rest ih =>
    unfold ObserverChunkCoalescer.append
    split
    · rfl
    · simp [ih]

theorem Sound.append (sound : Sound self) : Sound (self.append key event text) := by
  refine ⟨by rw [append_keys]; exact sound.keys, ?_⟩
  have chunks := sound.chunks
  clear sound
  induction self with
  | nil => exact nofun
  | cons pending rest ih =>
    rw [forall_mem_cons] at chunks
    unfold ObserverChunkCoalescer.append
    split
    · exact forall_mem_cons.mpr chunks
    · exact forall_mem_cons.mpr ⟨chunks.1, ih chunks.2⟩

theorem held_append (keys : (self.map PendingObserverChunk.key).Nodup)
    (present : key ∈ self.map PendingObserverChunk.key) (wanted : ObserverChunkKey) :
    held wanted (self.append key event text) =
      held wanted self ++ if key = wanted then text.toList else [] := by
  induction self with
  | nil => cases present
  | cons pending rest ih =>
    rw [map_cons, nodup_cons] at keys
    unfold ObserverChunkCoalescer.append
    by_cases same : pending.key = key
    · rw [if_pos same]
      by_cases isWanted : key = wanted
      · have none := held_of_not_mem keys.1
        rw [same, isWanted] at none
        simp only [held] at none
        simp [held, same, isWanted, none]
      · simp [held, same, isWanted]
    · rw [if_neg same]
      rcases mem_cons.mp present with here | later
      · exact absurd here.symm same
      · have rest := ih keys.2 later
        simp only [held, flatMap_cons, append_assoc] at rest ⊢
        rw [rest]

/-- A key's text goes in order, other events at once. -/
theorem call_spec (sound : Sound self) (call : Call) :
    Sound (call.run self).2 ∧ others (call.run self).1 = others (ingested call).toList ∧
      ∀ key, texts key (call.run self).1 ++ held key (call.run self).2 =
        held key self ++ texts key (ingested call).toList := by
  have flushed (key : ObserverChunkKey) : texts key self.flush.1 = held key self :=
    texts_flush sound
  cases call with
  | flush =>
    exact ⟨sound_nil, others_flush sound, fun key => congrArg (· ++ []) (flushed key)⟩
  | ingest event =>
    simp only [Call.run, ingested, toList_some]
    cases read : observerChunkKeyAndText event with
    | none =>
      simp only [ObserverChunkCoalescer.ingest, read]
      refine ⟨sound_nil, ?_, fun key => ?_⟩
      · rw [others, filter_append]
        exact congrArg (· ++ _) (others_flush sound)
      · rw [texts, flatMap_append, ← texts, flushed]
        simp [held, texts]
    | some chunk =>
      rcases chunk with ⟨key, text⟩
      have isChunk : others [event] = [] := by simp [others, read]
      have own (wanted : ObserverChunkKey) :
          texts wanted [event] = if key = wanted then text.toList else [] := by
        simp [texts, textOf, read]
      simp only [ObserverChunkCoalescer.ingest, read]
      cases found : self.find? fun pending => pending.key = key with
      | none =>
        have absent : key ∉ self.map PendingObserverChunk.key := by
          simpa [find?_eq_none] using found
        refine ⟨⟨?_, ?_⟩, isChunk.symm, fun wanted => ?_⟩
        · rw [map_append]
          refine nodup_append.mpr ⟨sound.keys, nodup_singleton _, ?_⟩
          simpa using absent
        · intro pending member
          rcases mem_append.mp member with old | new
          · exact sound.chunks pending old
          · exact (sound_single read).chunks pending new
        · rw [own]
          simp [held, texts]
      | some pending =>
        have present : key ∈ self.map PendingObserverChunk.key :=
          mem_map.mpr ⟨pending, mem_of_find?_eq_some found, by
            simpa using find?_some found⟩
        dsimp only
        split
        · refine ⟨sound_single read, (others_flush sound).trans isChunk.symm, fun wanted => ?_⟩
          rw [flushed, own]
          simp [held]
        · refine ⟨sound.append, isChunk.symm, fun wanted => ?_⟩
          rw [own]
          exact held_append sound.keys present wanted

theorem runAll_spec (calls : List Call) (sound : Sound self) : Sound (runAll self calls).2 ∧
    others (runAll self calls).1 = others (calls.filterMap ingested) ∧
      ∀ key, texts key (runAll self calls).1 ++ held key (runAll self calls).2 =
        held key self ++ texts key (calls.filterMap ingested) := by
  induction calls generalizing self with
  | nil => exact ⟨sound, rfl, fun key => by simp [runAll, texts]⟩
  | cons call calls ih =>
    have first := call_spec sound call
    have later := ih first.1
    have given : (call :: calls).filterMap ingested =
        (ingested call).toList ++ calls.filterMap ingested := by
      cases call <;> rfl
    rw [given]
    refine ⟨later.1, ?_, fun key => ?_⟩
    · simp only [runAll, others, filter_append] at first later ⊢
      rw [first.2.1, later.2.1]
    · have one := first.2.2 key
      have rest := later.2.2 key
      simp only [runAll, texts, flatMap_append] at one rest ⊢
      rw [append_assoc, rest, ← append_assoc, one, append_assoc]

theorem runAll_append {more : List Call} : runAll self (calls ++ more) =
    ((runAll self calls).1 ++ (runAll (runAll self calls).2 more).1,
      (runAll (runAll self calls).2 more).2) := by
  induction calls generalizing self with
  | nil => rfl
  | cons call calls ih => simp [runAll, ih]

theorem ingested_flush :
    (calls ++ [Call.flush]).filterMap ingested = calls.filterMap ingested := by
  rw [filterMap_append]
  exact append_nil _

theorem flushed_spec (sound : Sound self) (key : ObserverChunkKey) :
    texts key (runAll self (calls ++ [.flush])).1 =
      held key self ++ texts key (calls.filterMap ingested) := by
  have whole := (runAll_spec (calls ++ [.flush]) sound).2.2 key
  have none : (runAll self (calls ++ [.flush])).2 = [] := by
    rw [runAll_append]
    rfl
  rw [none, ingested_flush] at whole
  simpa [held] using whole

/-- Other events come once and in place. -/
theorem coalescer_exact (calls : List Call) :
    (∀ key, texts key (runAll [] (calls ++ [.flush])).1 = texts key (calls.filterMap ingested)) ∧
    others (runAll [] (calls ++ [.flush])).1 = others (calls.filterMap ingested) ∧
    ∀ before event after, calls = before ++ .ingest event :: after →
      observerChunkKeyAndText event = none →
      ∃ earlier later, (runAll [] (calls ++ [.flush])).1 = earlier ++ event :: later ∧
        ∀ key, texts key earlier = texts key (before.filterMap ingested) ∧
          texts key later = texts key (after.filterMap ingested) := by
  refine ⟨flushed_spec sound_nil, ?_, ?_⟩
  · rw [← ingested_flush]
    exact (runAll_spec (calls ++ [.flush]) sound_nil).2.1
  · intro before event after same other
    subst same
    have first := runAll_spec before sound_nil
    have ingest : Call.run (runAll [] before).2 (.ingest event) =
        ((runAll [] before).2.flush.1 ++ [event], []) := by
      simp only [Call.run, ObserverChunkCoalescer.ingest, other]
    refine ⟨(runAll [] before).1 ++ (runAll [] before).2.flush.1,
      (runAll [] (after ++ [.flush])).1, ?_, fun key => ⟨?_, flushed_spec sound_nil key⟩⟩
    · simp [runAll_append, runAll, ingest]
    · rw [texts, flatMap_append]
      exact (congrArg _ (texts_flush first.1)).trans (first.2.2 key)

end streams

end Buzz.Observer
