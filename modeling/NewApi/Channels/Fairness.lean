import NewApi.Code.ChannelCache
import NewApi.Code.Channel
import NewApi.Lib.RoundRobin

/-!
# Keys in turns

The cursor is read from the memory cache and written to the object the call is made on, so the turn passes on where
these are one object.
-/

namespace NewApi.Channels.Fairness

open Code.Channels RoundRobin

variable {keys : List String} {statusList : Nat → Option ChannelStatus} {channel saved : Channel} {s : ChannelState}

/-! ## One selection -/

structure Polls (keys : List String) (statusList : Nat → Option ChannelStatus) (channel : Channel) : Prop where
  multi : channel.channelInfo.isMultiKey = true
  mode : channel.channelInfo.multiKeyMode = .polling
  keys : channel.getKeys = keys
  statuses : channel.channelInfo.multiKeyStatusList = statusList

def enabled (statusList : Nat → Option ChannelStatus) (idx : Nat) : Bool := getStatus statusList idx = .enabled

abbrev enabledIdx (keys : List String) (statusList : Nat → Option ChannelStatus) : List Nat :=
  turns (enabled statusList) keys.length

def startOf (keys : List String) (pollingIndex : Int) : Nat :=
  if pollingIndex < 0 ∨ (keys.length : Int) ≤ pollingIndex then 0 else pollingIndex.toNat

def turnOf (keys : List String) (statusList : Nat → Option ChannelStatus) (pollingIndex : Int) : Nat :=
  (turns (enabled statusList) (startOf keys pollingIndex)).length

def withCursor (channel : Channel) (cursor : Int) : Channel :=
  { channel with channelInfo := { channel.channelInfo with multiKeyPollingIndex := cursor } }

theorem startOf_le (keys : List String) (pollingIndex : Int) : startOf keys pollingIndex ≤ keys.length := by
  unfold startOf
  split <;> omega

theorem getNextEnabledKey_polls (h : Polls keys statusList channel) (hpos : enabledIdx keys statusList ≠ [])
    (pollingIndex : Int) (draw : Nat) :
    ∃ idx, (enabledIdx keys statusList)[turnOf keys statusList pollingIndex % (enabledIdx keys statusList).length]? =
        some idx ∧
      getNextEnabledKey channel pollingIndex draw = .ok ⟨keys[idx]?.getD "", idx,
        some (withCursor channel ((idx + 1) % keys.length : Nat))⟩ := by
  have hscan := scan_eq (startOf_le keys pollingIndex) hpos
  have hlt := Nat.mod_lt (turnOf keys statusList pollingIndex) (List.length_pos_of_ne_nil hpos)
  obtain ⟨idx, hidx⟩ : ∃ idx, (enabledIdx keys statusList)[turnOf keys statusList pollingIndex %
      (enabledIdx keys statusList).length]? = some idx := ⟨_, List.getElem?_eq_getElem hlt⟩
  refine ⟨idx, hidx, ?_⟩
  have hnext : nextFrom keys statusList (startOf keys pollingIndex) = some idx := hscan.trans hidx
  have hkeys : keys ≠ [] := by
    rintro rfl
    exact hpos rfl
  have hsome : (List.range keys.length).filter (fun i => getStatus statusList i = .enabled) ≠ [] := hpos
  unfold startOf at hnext
  simp only [getNextEnabledKey, h.multi, h.mode, h.keys, h.statuses, Bool.true_eq_false, if_false, hkeys, hsome, hnext,
    withCursor]

theorem turnOf_next {r idx : Nat} (hidx : (enabledIdx keys statusList)[r % (enabledIdx keys statusList).length]? = some idx) :
    turnOf keys statusList ((idx + 1) % keys.length : Nat) % (enabledIdx keys statusList).length =
      (r + 1) % (enabledIdx keys statusList).length := by
  have hlen := length_turns_succ hidx
  have hlt : idx < keys.length := by
    have hmem := List.mem_of_getElem? hidx
    simp only [turns, List.mem_filter, List.mem_range] at hmem
    exact hmem.1
  rw [← Nat.mod_add_mod r, ← hlen]
  unfold turnOf startOf
  rcases Nat.eq_or_lt_of_le (Nat.succ_le_of_lt hlt) with hend | hmid
  · -- The last key of all: the cursor goes around, and all enabled keys have had their turn.
    have hend' : idx + 1 = keys.length := hend
    rw [hend', Nat.mod_self, Nat.mod_self]
    simp [turns]
  · have hmid' : idx + 1 < keys.length := hmid
    rw [Nat.mod_eq_of_lt hmid', if_neg (by omega), Int.toNat_natCast]

/-! ## Selections in a row -/

inductive Event where
  | select (receiver : Receiver) (draw : Nat) (saveFails : Bool)
  | reload

def reload (s : ChannelState) : ChannelState :=
  if s.memoryCacheEnabled then { s with cached := some (carryOver s.cached s.row) } else s

abbrev Served := Option (Except String (String × Nat))

def serve : ChannelState → List Event → List Served
  | _, [] => []
  | s, .reload :: events => serve (reload s) events
  | s, .select receiver draw saveFails :: events =>
    match s.getNextEnabledKey receiver draw saveFails with
    | none => none :: serve s events
    | some (answer, s') => some (answer.map fun next => (next.key, next.index)) :: serve s' events

structure Ready (keys : List String) (statusList : Nat → Option ChannelStatus) (s : ChannelState) : Prop where
  row : Polls keys statusList s.row
  cached : s.memoryCacheEnabled = true → ∃ channel, s.cached = some channel ∧ Polls keys statusList channel

def Unchanged (keys : List String) (statusList : Nat → Option ChannelStatus) : Event → Prop
  | .select (.loaded copy) _ _ => Polls keys statusList copy
  | _ => True

/-- On the cached object, or on a loaded copy whose save does not fail. -/
def PassesOn (memoryCacheEnabled : Bool) : Event → Prop
  | .select receiver _ saveFails =>
    if memoryCacheEnabled then receiver = .cached else receiver ≠ .cached ∧ saveFails = false
  | .reload => True

def cursor (s : ChannelState) : Int := s.pollingIndex.toOption.getD 0

def answerFor (keys : List String) (statusList : Nat → Option ChannelStatus) (r : Nat) : Served :=
  (enabledIdx keys statusList)[r % (enabledIdx keys statusList).length]?.map fun idx => .ok (keys[idx]?.getD "", idx)

theorem Polls.withCursor (h : Polls keys statusList channel) (c : Int) : Polls keys statusList (withCursor channel c) :=
  ⟨h.multi, h.mode, h.keys, h.statuses⟩

theorem Polls.saveChannelInfo (h : Polls keys statusList channel) (hsaved : Polls keys statusList saved) :
    Polls keys statusList (saveChannelInfo channel saved) :=
  ⟨hsaved.multi, hsaved.mode, h.keys, hsaved.statuses⟩

structure Selects (keys : List String) (statusList : Nat → Option ChannelStatus) (s : ChannelState)
    (answer : NextKey) (s' : ChannelState) : Prop where
  answer : some (.ok (answer.key, answer.index)) = answerFor keys statusList (turnOf keys statusList (cursor s))
  ready : Ready keys statusList s'
  memory : s'.memoryCacheEnabled = s.memoryCacheEnabled
  turn : turnOf keys statusList (cursor s') % (enabledIdx keys statusList).length =
    (turnOf keys statusList (cursor s) + 1) % (enabledIdx keys statusList).length

theorem selects_of_cursor {s' : ChannelState} {idx : Nat} {after : Option Channel}
    (hidx : (enabledIdx keys statusList)[turnOf keys statusList (cursor s) % (enabledIdx keys statusList).length]? =
      some idx)
    (hready : Ready keys statusList s') (hmemory : s'.memoryCacheEnabled = s.memoryCacheEnabled)
    (hcursor : cursor s' = ((idx + 1) % keys.length : Nat)) :
    Selects keys statusList s ⟨keys[idx]?.getD "", idx, after⟩ s' := by
  refine ⟨?_, hready, hmemory, ?_⟩
  · rw [answerFor, hidx]
    rfl
  · rw [hcursor]
    exact turnOf_next hidx

theorem select_ready {receiver : Receiver} {saveFails : Bool} (draw : Nat) (hready : Ready keys statusList s)
    (hsame : Unchanged keys statusList (.select receiver draw saveFails))
    (hpass : PassesOn s.memoryCacheEnabled (.select receiver draw saveFails)) (hpos : enabledIdx keys statusList ≠ []) :
    ∃ answer s', s.getNextEnabledKey receiver draw saveFails = some (.ok answer, s') ∧
      Selects keys statusList s answer s' := by
  simp only [PassesOn] at hpass
  cases hmemory : s.memoryCacheEnabled with
  | true =>
    rw [hmemory, if_pos rfl] at hpass
    subst hpass
    obtain ⟨channel, hcached, hpolls⟩ := hready.cached hmemory
    have hread : s.pollingIndex = .ok channel.channelInfo.multiKeyPollingIndex := by
      simp [ChannelState.pollingIndex, hmemory, hcached]
    have hcursor : cursor s = channel.channelInfo.multiKeyPollingIndex := by
      simp [cursor, hread, Except.toOption]
    obtain ⟨idx, hidx, hanswer⟩ := getNextEnabledKey_polls hpolls hpos (cursor s) draw
    refine ⟨⟨_, _, some (withCursor channel ((idx + 1) % keys.length : Nat))⟩,
      { s with cached := some (withCursor channel ((idx + 1) % keys.length : Nat)) }, ?_,
      selects_of_cursor hidx ⟨hready.row, fun _ => ⟨_, rfl, hpolls.withCursor _⟩⟩ rfl ?_⟩
    · rw [hcursor] at hanswer
      simp only [ChannelState.getNextEnabledKey, ChannelState.object, hcached, hread, Except.toOption, Option.getD_some,
        hanswer, Option.map_some, ChannelState.leave, hmemory, Bool.true_eq_false, false_and, if_false]
    · simp [cursor, ChannelState.pollingIndex, hmemory, Except.toOption, withCursor]
  | false =>
    rw [hmemory, if_neg (by decide)] at hpass
    obtain ⟨hreceiver, rfl⟩ := hpass
    cases receiver with
    | cached => exact absurd rfl hreceiver
    | loaded copy =>
      have hpolls : Polls keys statusList copy := hsame
      have hread : s.pollingIndex = .ok s.row.channelInfo.multiKeyPollingIndex := by
        simp [ChannelState.pollingIndex, hmemory]
      have hcursor : cursor s = s.row.channelInfo.multiKeyPollingIndex := by
        simp [cursor, hread, Except.toOption]
      obtain ⟨idx, hidx, hanswer⟩ := getNextEnabledKey_polls hpolls hpos (cursor s) draw
      refine ⟨⟨_, _, some (withCursor copy ((idx + 1) % keys.length : Nat))⟩,
        { s with row := saveChannelInfo s.row (withCursor copy ((idx + 1) % keys.length : Nat)) }, ?_,
        selects_of_cursor hidx ⟨hready.row.saveChannelInfo (hpolls.withCursor _), ?_⟩ rfl ?_⟩
      · rw [hcursor] at hanswer
        simp only [ChannelState.getNextEnabledKey, ChannelState.object, hread, Except.toOption, Option.getD_some,
          hanswer, Option.map_some, ChannelState.leave, hmemory, and_self, if_true]
      · intro hon
        rw [hmemory] at hon
        cases hon
      · simp [cursor, ChannelState.pollingIndex, hmemory, Except.toOption, withCursor, saveChannelInfo]

theorem reload_ready (hready : Ready keys statusList s) (hpos : enabledIdx keys statusList ≠ []) :
    Ready keys statusList (reload s) ∧ (reload s).memoryCacheEnabled = s.memoryCacheEnabled ∧
      cursor (reload s) = cursor s := by
  unfold reload
  split
  · rename_i hmemory
    obtain ⟨channel, hcached, hpolls⟩ := hready.cached hmemory
    have hrow := hready.row
    have hkeys : keys ≠ [] := by
      rintro rfl
      exact hpos rfl
    have hcarry : carryOver s.cached s.row =
        { withCursor s.row channel.channelInfo.multiKeyPollingIndex with keys := s.row.getKeys } := by
      simp [carryOver, hcached, hrow.multi, hrow.mode, hpolls.multi, hpolls.mode, withCursor]
    refine ⟨⟨hrow, fun _ => ⟨_, rfl, ?_⟩⟩, rfl, ?_⟩
    · rw [hcarry]
      refine ⟨hrow.multi, hrow.mode, ?_, hrow.statuses⟩
      have hkey : s.row.key ≠ "" := by
        intro hempty
        apply hkeys
        rw [← hrow.keys, Channel.getKeys, if_pos hempty]
      rw [← hrow.keys] at hkeys ⊢
      simp only [Channel.getKeys, withCursor, hkey, if_false] at hkeys ⊢
      rw [if_pos hkeys]
    · simp only [cursor, ChannelState.pollingIndex, hmemory, hcarry, if_true]
      simp [hcached, withCursor]
  · exact ⟨hready, rfl, rfl⟩

/-! ## Fairness -/

theorem serve_turns {events : List Event} {r : Nat} (hready : Ready keys statusList s)
    (hsame : ∀ e ∈ events, Unchanged keys statusList e) (hpass : ∀ e ∈ events, PassesOn s.memoryCacheEnabled e)
    (hpos : enabledIdx keys statusList ≠ [])
    (hturn : turnOf keys statusList (cursor s) % (enabledIdx keys statusList).length =
      r % (enabledIdx keys statusList).length) :
    ∀ j < (serve s events).length, (serve s events)[j]? = some (answerFor keys statusList (r + j)) := by
  induction events generalizing s r with
  | nil => intro j hj; cases hj
  | cons e events ih =>
    have hsame' : ∀ e ∈ events, Unchanged keys statusList e := fun e he => hsame e (List.mem_cons_of_mem _ he)
    have hpass' : ∀ e ∈ events, PassesOn s.memoryCacheEnabled e := fun e he => hpass e (List.mem_cons_of_mem _ he)
    cases e with
    | reload =>
      obtain ⟨hready', hmemory, hcursor⟩ := reload_ready hready hpos
      exact ih hready' hsame' (hmemory ▸ hpass') (hcursor ▸ hturn)
    | select receiver draw saveFails =>
      obtain ⟨answer, s', hselect, hselects⟩ :=
        select_ready draw hready (hsame _ List.mem_cons_self) (hpass _ List.mem_cons_self) hpos
      have hserve : serve s (.select receiver draw saveFails :: events) =
          some (.ok (answer.key, answer.index)) :: serve s' events := by
        rw [serve, hselect]
        rfl
      have hfirst : answerFor keys statusList (turnOf keys statusList (cursor s)) = answerFor keys statusList r := by
        unfold answerFor
        rw [hturn]
      have hnext : turnOf keys statusList (cursor s') % (enabledIdx keys statusList).length =
          (r + 1) % (enabledIdx keys statusList).length := by
        rw [hselects.turn, Nat.add_mod, hturn, ← Nat.add_mod]
      intro j hj
      rw [hserve] at hj ⊢
      cases j with
      | zero => rw [List.getElem?_cons_zero, hselects.answer, hfirst, Nat.add_zero]
      | succ j =>
        rw [List.getElem?_cons_succ, ih hselects.ready hsame' (hselects.memory ▸ hpass') hnext j
          (Nat.lt_of_succ_lt_succ hj), Nat.add_right_comm, Nat.add_assoc]

theorem polling_takes_turns (keys : List String) (statusList : Nat → Option ChannelStatus) (s : ChannelState)
    (events : List Event) (hready : Ready keys statusList s) (hsame : ∀ e ∈ events, Unchanged keys statusList e)
    (hpos : enabledIdx keys statusList ≠ []) (hpass : ∀ e ∈ events, PassesOn s.memoryCacheEnabled e) :
    (∀ j, j + (enabledIdx keys statusList).length ≤ (serve s events).length →
      (((serve s events).drop j).take (enabledIdx keys statusList).length).Perm
        ((enabledIdx keys statusList).map fun idx => some (.ok (keys[idx]?.getD "", idx)))) ∧
    ∀ j, j + (enabledIdx keys statusList).length < (serve s events).length →
      (serve s events)[j + (enabledIdx keys statusList).length]? = (serve s events)[j]? := by
  have hturns := serve_turns hready hsame hpass hpos rfl
  set k := (enabledIdx keys statusList).length with hk
  set r := turnOf keys statusList (cursor s)
  constructor
  · intro j hj
    have hwindow : ((serve s events).drop j).take k =
        ((List.range k).map fun i => (enabledIdx keys statusList)[(r + j + i) % k]?).map
          fun idx => idx.map fun idx => .ok (keys[idx]?.getD "", idx) := by
      apply List.ext_getElem?
      intro i
      rw [List.getElem?_take]
      split
      · rename_i hi
        rw [List.getElem?_drop, hturns _ (by omega)]
        simp [answerFor, hi, Nat.add_assoc, ← hk]
      · rename_i hi
        simp [hi]
    have hall : (enabledIdx keys statusList).map (fun idx => (some (.ok (keys[idx]?.getD "", idx)) : Served)) =
        ((enabledIdx keys statusList).map some).map fun idx => idx.map fun idx => .ok (keys[idx]?.getD "", idx) := by
      rw [List.map_map]
      rfl
    rw [hwindow, hall]
    exact (window_perm (enabledIdx keys statusList) (r + j)).map _
  · intro j hj
    rw [hturns _ hj, hturns j (by omega), answerFor, answerFor, ← hk]
    congr 3
    rw [← Nat.add_assoc, Nat.add_mod_right]

def fourKeys : Channel :=
  { blankChannel 7 with
    key := "a\nb\nc\nd"
    status := .enabled
    channelInfo := ⟨true, 4, fun i => if i = 1 then some .manuallyDisabled else none, fun _ => none, fun _ => none, 9,
      .polling⟩ }

def inMemory : ChannelState := ⟨true, fourKeys, some fourKeys⟩

theorem fourKeys_polls : Polls ["a", "b", "c", "d"] (fun i => if i = 1 then some .manuallyDisabled else none) fourKeys :=
  ⟨rfl, rfl, by decide +kernel, rfl⟩

theorem inMemory_ready :
    Ready ["a", "b", "c", "d"] (fun i => if i = 1 then some .manuallyDisabled else none) inMemory :=
  ⟨fourKeys_polls, fun _ => ⟨fourKeys, rfl, fourKeys_polls⟩⟩

theorem polling_takes_turns_four :
    ((serve inMemory (List.replicate 4 (.select .cached 0 false))).take 3).Perm
        [some (.ok ("a", 0)), some (.ok ("c", 2)), some (.ok ("d", 3))] ∧
      (serve inMemory (List.replicate 4 (.select .cached 0 false)))[3]? =
        (serve inMemory (List.replicate 4 (.select .cached 0 false)))[0]? := by
  have hlength : (serve inMemory (List.replicate 4 (.select .cached 0 false))).length = 4 := by decide +kernel
  obtain ⟨honce, hperiod⟩ := polling_takes_turns _ _ inMemory (List.replicate 4 (.select .cached 0 false))
    inMemory_ready (fun e he => by rw [List.eq_of_mem_replicate he]; trivial) (by decide)
    (fun e he => by rw [List.eq_of_mem_replicate he]; rfl)
  exact ⟨honce 0 (by rw [hlength]; decide), hperiod 0 (by rw [hlength]; decide)⟩

/-- A loaded copy reads the cursor of the cached object and sets its own. -/
theorem loaded_copies_repeat :
    ∃ keys statusList s events, Ready keys statusList s ∧ (∀ e ∈ events, Unchanged keys statusList e) ∧
      (enabledIdx keys statusList).length = 3 ∧
      serve s events = [some (.ok ("a", 0)), some (.ok ("a", 0)), some (.ok ("a", 0))] := by
  refine ⟨_, _, inMemory, List.replicate 3 (.select (.loaded fourKeys) 0 false), inMemory_ready, ?_, by decide,
    by decide +kernel⟩
  intro e he
  rw [List.eq_of_mem_replicate he]
  exact fourKeys_polls

end NewApi.Channels.Fairness
