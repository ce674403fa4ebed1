/-
What becomes of the wiring. As long as foreign code, whenever it is its turn, does nothing and returns, the thread
does to the wiring what the operations on it say, and is then where it was before.
-/
import Conduit.Proofs.Filing
import Conduit.Proofs.Locking.Mutexes
import Conduit.Proofs.Wiring.Drain

namespace Conduit.Locking

namespace Machine

variable {s t u : Machine} {w v : World} {tasks after : List Task} {m : Mutex} {ch : ChannelId} {a : SubscriptionId}
  {h : Handle} {dying : Option ChannelId}

/-! ## Nothing comes from outside -/

/-- Foreign code returns at once, and everything else goes on. -/
def calm (s : Machine) : Choice :=
  match s.tasks with
  | .outside :: _ => .back
  | _ => .go

/-- Turns in which foreign code does nothing. -/
inductive Quietly : Machine → Machine → Prop
  | refl (s : Machine) : Quietly s s
  | turn {s t u : Machine} (hs : s.turn s.calm = some t) (ht : Quietly t u) : Quietly s u

theorem Quietly.trans (hs : Quietly s t) (ht : Quietly t u) : Quietly s u := by
  induction hs with
  | refl => exact ht
  | turn hstep _ ih => exact .turn hstep (ih ht)

theorem Quietly.single (h : s.turn s.calm = some u) : Quietly s u := .turn h (.refl u)

/-- The wiring is in another state, other mutexes are held, and other tasks are left. -/
def on (s : Machine) (w : World) (held : List Mutex) (tasks : List Task) : Machine := { s with world := w, held, tasks }

/-- A section begins, does its work and is over. -/
theorem quietly_section {c : Section}
    (hc : (s.on w [c.mutex] tasks).perform c = s.on v [c.mutex] (.unlock c.mutex :: (after ++ tasks))) :
    Quietly (s.on w [] (.enter c :: tasks)) (s.on v [] (after ++ tasks)) := by
  have henter : (s.on w [] (.enter c :: tasks)).turn .go = some (s.on w [c.mutex] (.inside c :: tasks)) := by
    show (if c.mutex ∈ ([] : List Mutex) then none else some (s.on w [c.mutex] (.inside c :: tasks))) = _
    rw [if_neg List.not_mem_nil]
  have hwork : (s.on w [c.mutex] (.inside c :: tasks)).turn .go =
      some (s.on v [c.mutex] (.unlock c.mutex :: (after ++ tasks))) := congrArg some hc
  have hunlock : (s.on v [c.mutex] (.unlock c.mutex :: (after ++ tasks))).turn .go =
      some (s.on v [] (after ++ tasks)) := by
    refine congrArg some ?_
    show s.on v (List.erase [c.mutex] c.mutex) _ = _
    rw [List.erase_cons_head]
  exact .turn henter (.turn hwork (.turn hunlock (.refl _)))

/-- Whatever runs outside is over at once. -/
theorem quietly_outside : Quietly (s.on w [] (.outside :: tasks)) (s.on w [] tasks) := .single rfl

theorem quietly_free (slot : Slot) : Quietly (s.on w [] (.free slot :: tasks)) (s.on w [] tasks) :=
  .turn rfl quietly_outside

theorem quietly_frees {α : Type} (slot : α → Slot) : ∀ (l : List α),
    Quietly (s.on w [] (l.map (fun x => .free (slot x)) ++ tasks)) (s.on w [] tasks)
  | [] => .refl _
  | x :: l => (quietly_free (slot x)).trans (quietly_frees slot l)

theorem quietly_note (e : Entry) : Quietly (s.on w [] (.note e :: tasks)) (s.on (w.note e) [] tasks) := .single rfl

/-! ## Handles and channels -/

/-- A handle that is let go leaves the wiring alone, unless it is a subscription that is connected. -/
theorem quietly_drop (hh : ∀ a, h = .own a → w.isConnected a = false) :
    Quietly (s.on w [] (.drop h :: tasks)) (s.on w [] tasks) := by
  have hgo : (s.on w [] (.drop h :: tasks)).turn .go = some ((s.on w [] tasks).push ((s.on w [] tasks).letGo h)) := rfl
  refine .turn hgo ?_
  unfold letGo
  split
  · exact .refl _
  · cases h with
    | foreign f => exact .turn rfl quietly_outside
    | own a =>
      refine .single ?_
      show some ((s.on w [] tasks).sever a) = _
      unfold sever
      rw [if_neg (by rw [show (s.on w [] tasks).world = w from rfl, hh a rfl]; exact Bool.false_ne_true)]

/-- A channel that is kept does not end. -/
theorem quietly_leave (hkept : .channel ch ∈ s.kept) : Quietly (s.on w [] (.leave ch :: tasks)) (s.on w [] tasks) := by
  refine .single ?_
  have hholds : (s.on w [] tasks).holds ch = true := by
    unfold holds
    rw [show (s.on w [] tasks).kept = s.kept from rfl, List.contains_iff_mem.2 hkept]
    rfl
  show some ((s.on w [] tasks).carry (.leave ch)) = _
  dsimp only [carry]
  rw [hholds]
  rfl

/-! ## Closing -/

/-- Under this number the registries list its own subscription, if any, or a foreign handle. -/
def Filed (w : World) (a : SubscriptionId) : Prop := ∀ ch b, (w.registry ch).get? a = some (.own b) → b = a

theorem filed_of_sound (hw : World.Sound dying w) (a : SubscriptionId) : Filed w a := fun ch _ hget =>
  ((hw.keyed ch _ (Registry.get?_eq_some_iff.1 hget)).1).symm

/-- A number is removed from the registry of a channel, and the handle goes that was there for it. -/
theorem quietly_erase (hw : Filed w a) (ha : w.isConnected a = false) :
    Quietly (s.on w [] (.enter (.erase (.channel ch) a false) :: tasks)) (s.on (w.deregister ch a) [] tasks) := by
  have hsection : Quietly (s.on w [] (.enter (.erase (.channel ch) a false) :: tasks))
      (s.on (w.deregister ch a) [] ((((w.registry ch).get? a).toList.map .drop) ++ tasks)) := quietly_section rfl
  refine hsection.trans ?_
  cases hget : (w.registry ch).get? a with
  | none => exact .refl _
  | some h =>
    refine quietly_drop ?_
    rintro b rfl
    obtain rfl := hw ch b hget
    exact ha

/-- A place is taken out of the signal of an output, and its slot goes. -/
theorem quietly_disconnect {o : ChannelId} {place : Nat} {client : Option SubscriptionId} {v : World}
    (hv : (s.on w [.signal (.output o)] tasks).disconnect (.output o) place client =
      s.on v [.signal (.output o)] tasks) :
    Quietly (s.on w [] (.enter (.disconnect (.output o) place client) :: tasks)) (s.on v [] tasks) := by
  have hsection : Quietly (s.on w [] (.enter (.disconnect (.output o) place client) :: tasks))
      (s.on v [] (((s.on w [.signal (.output o)] tasks).slotsAt (.output o) place).map .free ++ tasks)) := by
    refine quietly_section ?_
    dsimp only [perform]
    rw [show Section.mutex (.disconnect (.output o) place client) = .signal (.output o) from rfl, hv]
    rfl
  exact hsection.trans (quietly_frees (fun slot => slot) _)

/-- A place is taken out by hand. -/
theorem quietly_disconnectByHand (o : ChannelId) (place : Nat) :
    Quietly (s.on w [] (.enter (.disconnect (.output o) place none) :: tasks))
      (s.on (w.disconnectByHand o place) [] tasks) :=
  quietly_disconnect rfl

theorem quietly_atOutput {o : ChannelId} {place : Nat} (hw : Filed w a) (ha : w.isConnected a = false)
    (hkept : w.channelAlive o = true → .channel o ∈ s.kept) :
    Quietly (s.on w [] (.atOutput a o place :: tasks)) (s.on (w.closeAtOutput a o place) [] tasks) := by
  have hgo : (s.on w [] (.atOutput a o place :: tasks)).turn .go =
      some ((s.on w [] tasks).carry (.atOutput a o place)) :=
    rfl
  refine .turn hgo ?_
  dsimp only [carry, World.closeAtOutput]
  rw [show (s.on w [] tasks).world = w from rfl]
  split
  · rename_i halive
    -- Nothing of what is done at the output connects the subscription again.
    have hparts : World.SameParts ((w.disconnectFor a o place).release a o) w := by
      refine (World.SameParts.release ..).trans ((World.SameParts.disconnect ..).trans ?_)
      exact (World.SameParts.record ..).trans (World.SameParts.noteIfCounting ..)
    have hclosed : ((w.disconnectFor a o place).release a o).isConnected a = false := by
      rw [World.isConnected, hparts.subscription?]
      exact ha
    have hfiled : Filed ((w.disconnectFor a o place).release a o) a := by
      intro ch b hget
      refine hw ch b ?_
      simpa [World.release, World.disconnectFor] using hget
    exact (quietly_disconnect rfl).trans ((quietly_erase hfiled hclosed).trans (quietly_leave (hkept halive)))
  · exact .refl _

theorem quietly_atInput {i : ChannelId} (hw : Filed w a) (ha : w.isConnected a = false)
    (hkept : w.channelAlive i = true → .channel i ∈ s.kept) :
    Quietly (s.on w [] (.atInput a i :: tasks)) (s.on (w.closeAtInput a i) [] tasks) := by
  have hgo : (s.on w [] (.atInput a i :: tasks)).turn .go = some ((s.on w [] tasks).carry (.atInput a i)) := rfl
  refine .turn hgo ?_
  dsimp only [carry, World.closeAtInput]
  rw [show (s.on w [] tasks).world = w from rfl]
  split
  · rename_i halive
    exact (quietly_erase hw ha).trans (quietly_leave (hkept halive))
  · exact .refl _

/-- The token of a subscription is taken, and then it is removed at both ends. -/
theorem quietly_sever (hw : World.Sound dying w) (hkept : ∀ c, w.channelAlive c = true → .channel c ∈ s.kept) :
    Quietly ((s.on w [] tasks).sever a) (s.on (w.close a) [] tasks) := by
  unfold sever
  rw [show (s.on w [] tasks).world = w from rfl]
  cases hconnected : w.isConnected a with
  | false =>
    rw [World.close_of_not_isConnected hconnected]
    exact .refl _
  | true =>
    obtain ⟨o, i, place, hsub⟩ := World.isConnected_iff.1 hconnected
    rw [World.close_of_token hsub]
    have htake : Quietly (s.on w [] (.enter (.take a) :: tasks)) (s.on (w.dropToken a) []
        ([.atOutput a o place, .atInput a i, .note (.event (.closed a))] ++ tasks)) := by
      refine quietly_section ?_
      dsimp only [perform]
      rw [show (s.on w [Section.mutex (.take a)] tasks).world = w from rfl, hsub]
      rfl
    have hclosed : (w.dropToken a).isConnected a = false := by
      rw [World.isConnected, World.subscription?_dropToken _ _ _ (World.pos_of_subscription? hsub), if_pos rfl, hsub]
      rfl
    have hfiled : Filed (w.dropToken a) a := filed_of_sound hw a
    have hparts := World.SameParts.closeAtOutput (w.dropToken a) a o place
    have hclosed' : ((w.dropToken a).closeAtOutput a o place).isConnected a = false := by
      rw [World.isConnected, hparts.subscription?]
      exact hclosed
    -- The output may have ended, so that its registry is left alone; the input is closed after that all the same.
    have hfiled' : Filed ((w.dropToken a).closeAtOutput a o place) a := by
      intro ch b hget
      rw [World.registry_closeAtOutput] at hget
      split at hget
      · rw [Registry.get?_erase, if_pos rfl] at hget
        cases hget
      · exact hfiled ch b hget
    have halive : ((w.dropToken a).closeAtOutput a o place).channelAlive i = w.channelAlive i := hparts.channelAlive i
    refine htake.trans ((quietly_atOutput hfiled hclosed (hkept o)).trans ?_)
    exact (quietly_atInput hfiled' hclosed' fun hi => hkept i (halive ▸ hi)).trans (quietly_note _)

/-- A handle that is closed does to the wiring what it says. -/
theorem quietly_closeHandle (hw : World.Sound dying w) (hkept : ∀ c, w.channelAlive c = true → .channel c ∈ s.kept)
    (h : Handle) : Quietly (s.on w [] (.close h :: tasks)) (s.on (w.closeHandle h) [] tasks) := by
  cases h with
  | own a => exact .turn rfl (quietly_sever hw hkept)
  | foreign f => exact .turn rfl quietly_outside

/-! ## Adding and subscribing -/

/-- A handle is added, and one that is too many is left to others. -/
theorem quietly_insert (hheld : (w.registry ch).has (w.handleId h) = true → (s.on w [] tasks).isHeld h = true) :
    Quietly (s.on w [] (.enter (.insert (.channel ch) h) :: tasks)) (s.on (w.register ch h) [] tasks) := by
  show Quietly _ (s.on _ [] ([] ++ tasks))
  refine quietly_section ?_
  show (if (w.registry ch).has (w.handleId h) = true then _ else _) = _
  split
  · rename_i hhas
    have hletGo : (s.on w [.registry (.channel ch)] tasks).letGo h = [] := if_pos (hheld hhas)
    have hregister : w.register ch h = w := by
      unfold World.register
      rw [Registry.insert_of_has hhas, World.setRegistry_self]
    rw [hregister]
    show (s.on w [.registry (.channel ch)] tasks).push ((s.on w [.registry (.channel ch)] tasks).letGo h ++ _) = _
    rw [hletGo]
    rfl
  · rfl

theorem isHeld_of_task {t : Task} (ht : t ∈ s.tasks) (hh : t.handle? = some h) : s.isHeld h = true := by
  have hany : s.tasks.any (·.handle? == some h) = true := List.any_eq_true.2 ⟨t, ht, beq_iff_eq.2 hh⟩
  unfold isHeld
  rw [hany, Bool.or_true]

/-- What there is to a subscription whose slot has got a place. -/
theorem subscribe?_cases (w : World) (o : ChannelId) {i : ChannelId} {d : Channel} (hd : w.channels[i]? = some d) :
    ((w.signal? o).bind (·.connect? d.slot) = none ∧ w.subscribe? o i = none) ∨
      ∃ (c : Channel) (g : Signal Slot) (place : Nat), w.channels[o]? = some c ∧ c.signal?.isSome = true ∧
        (w.signal? o).bind (·.connect? d.slot) = some (place, g) ∧
        w.subscribe? o i = some (w.subscriptions.length + 1, (((((w.setSignal o g).enroll ⟨o, i, some place⟩).record
          (.connected (w.subscriptions.length + 1) o place)).register o (.own (w.subscriptions.length + 1))).register i
          (.own (w.subscriptions.length + 1))).note
          (.event (.subscribed (w.subscriptions.length + 1) c.position g.cardinality))) := by
  cases hc : w.channels[o]? with
  | none => simp [World.subscribe?, World.signal?, hc]
  | some c =>
    cases hg : c.signal? with
    | none => simp [World.subscribe?, World.signal?, hc, hd, hg]
    | some g =>
      cases hg' : g.connect? d.slot with
      | none => simp [World.subscribe?, World.signal?, hc, hd, hg, hg']
      | some x =>
        obtain ⟨place, g'⟩ := x
        refine .inr ⟨c, g', place, rfl, by rw [hg]; rfl, ?_, ?_⟩
        · simp [World.signal?, hc, hg, hg']
        · simp [World.subscribe?, hc, hd, hg, hg']

/-- A subscription that is refused leaves the wiring alone. -/
theorem quietly_refused {o i : ChannelId} {d : Channel} (hd : w.channels[i]? = some d)
    (hsub : w.subscribe? o i = none) :
    Quietly (s.on w [] (.enter (.connect (.output o) d.slot (some i)) :: tasks)) (s.on w [] tasks) := by
  rcases subscribe?_cases w o hd with ⟨hnone, -⟩ | ⟨c, g, place, -, -, -, hsome⟩
  · have hsection : Quietly (s.on w [] (.enter (.connect (.output o) d.slot (some i)) :: tasks))
        (s.on w [] ([.free d.slot] ++ tasks)) := by
      refine quietly_section ?_
      dsimp only [perform]
      rw [show (s.on w [Section.mutex (.connect (.output o) d.slot (some i))] tasks).signal? (.output o) = w.signal? o
        from rfl, hnone]
      rfl
    exact hsection.trans (quietly_free _)
  · rw [hsub] at hsome
    cases hsome

/-- One that is made does to the wiring what it says, and foreign code gets its handle. -/
theorem quietly_subscribe {o i : ChannelId} {d : Channel} (hd : w.channels[i]? = some d)
    (hsub : w.subscribe? o i = some (a, v)) :
    Quietly (s.on w [] (.enter (.connect (.output o) d.slot (some i)) :: tasks))
      ({ s with kept := .handle (.own a) :: s.kept }.on v [] tasks) := by
  rcases subscribe?_cases w o hd with ⟨-, hnone⟩ | ⟨c, g, place, hc, hsignal, hsome, heq⟩
  · rw [hsub] at hnone
    cases hnone
  · rw [hsub] at heq
    cases heq
    -- The slot is connected while the signal is locked, and the rest is done with no lock held.
    have hconnect : Quietly (s.on w [] (.enter (.connect (.output o) d.slot (some i)) :: tasks))
        (s.on (w.setSignal o g) [] ([.enlist o i place] ++ tasks)) := by
      refine quietly_section ?_
      dsimp only [perform]
      rw [show (s.on w [Section.mutex (.connect (.output o) d.slot (some i))] tasks).signal? (.output o) = w.signal? o
        from rfl, hsome]
      rfl
    have hannounced : (s.on (w.setSignal o g) [] tasks).announced (w.subscriptions.length + 1) o =
        [.note (.event (.subscribed (w.subscriptions.length + 1) c.position g.cardinality))] := by
      have hchannel : (w.setSignal o g).channels[o]? = some (c.setSignal g) := by
        simp [World.setSignal, World.modifyChannel, hc]
      unfold announced
      rw [show (s.on (w.setSignal o g) [] tasks).world = w.setSignal o g from rfl, hchannel]
      obtain ⟨_, position, _, role, _, _⟩ := c
      cases role with
      | input => cases hsignal
      | output => rfl
    have henlist : (s.on (w.setSignal o g) [] ([.enlist o i place] ++ tasks)).turn .go =
        some ((s.on (w.setSignal o g) [] tasks).carry (.enlist o i place)) := rfl
    refine hconnect.trans (.turn henlist ?_)
    dsimp only [carry]
    rw [show (s.on (w.setSignal o g) [] tasks).world.subscriptions.length = w.subscriptions.length from rfl, hannounced]
    refine (quietly_insert fun _ => ?_).trans
      ((quietly_insert fun _ => ?_).trans ((quietly_note _).trans (.single rfl)))
    · -- While a handle is put into one registry, another reference to it is under way, so no handle ends here.
      exact isHeld_of_task (List.mem_cons_self ..) rfl
    · exact isHeld_of_task (List.mem_cons_of_mem _ (List.mem_cons_self ..)) rfl

/-! ## The end of a channel -/

/-- Which way a channel faces, and whether its signal reports what happens to connections. -/
def kindAt? (w : World) (ch : ChannelId) : Option (Direction × Bool) :=
  (w.channels[ch]?).map fun c => (c.direction, c.counts)

theorem kindAt?_modifyChannel (w : World) {o : ChannelId} {f : Channel → Channel}
    (hf : ∀ c, (f c).direction = c.direction ∧ (f c).counts = c.counts) :
      kindAt? (w.modifyChannel o f) = kindAt? w := by
  funext ch
  unfold kindAt? World.modifyChannel
  rw [List.getElem?_modify]
  split
  · cases w.channels[ch]? with
    | none => rfl
    | some c => simp [hf c]
  · simp

theorem kindAt?_setRegistry (w : World) (o : ChannelId) (r : Registry Handle) :
    kindAt? (w.setRegistry o r) = kindAt? w :=
  kindAt?_modifyChannel w fun _ => ⟨rfl, rfl⟩

theorem kindAt?_disconnect (w : World) (o : ChannelId) (place : Nat) : kindAt? (w.disconnect o place) = kindAt? w := by
  unfold World.disconnect
  split
  · rfl
  · split
    · refine kindAt?_modifyChannel w ?_
      rintro ⟨_, _, _, role, _, _⟩
      cases role <;> exact ⟨rfl, rfl⟩
    · rfl

theorem kindAt?_closeHandle (w : World) (h : Handle) : kindAt? (w.closeHandle h) = kindAt? w := by
  cases h with
  | foreign f =>
    rcases World.closeHandle_foreign w f with hf | ⟨e, hf⟩
    · rw [hf]
    · rw [hf]
      rfl
  | own a =>
    show kindAt? (w.close a) = _
    cases hconnected : w.isConnected a with
    | false => rw [World.close_of_not_isConnected hconnected]
    | true =>
      obtain ⟨o, i, place, hsub⟩ := World.isConnected_iff.1 hconnected
      -- Closing changes signals and registries, and leaves what a channel is to be told of as it was.
      have hnote : ∀ (w : World) (o : ChannelId) (e : Entry), kindAt? (w.noteIfCounting o e) = kindAt? w := by
        intro w o e
        unfold World.noteIfCounting
        split <;> rfl
      have hrelease : ∀ w : World, kindAt? (w.release a o) = kindAt? w := fun w => hnote w o _
      have hinput : ∀ w : World, kindAt? (w.closeAtInput a i) = kindAt? w := by
        intro w
        unfold World.closeAtInput
        split
        · exact kindAt?_setRegistry ..
        · rfl
      rw [World.close_of_token hsub]
      refine (hinput _).trans ?_
      unfold World.closeAtOutput
      split
      · refine (kindAt?_setRegistry ..).trans ((hrelease _).trans ?_)
        exact (kindAt?_disconnect ..).trans (hnote ..)
      · exact hrelease _

theorem quietly_consult (h : Handle) : Quietly (s.on w [] (.consult h :: tasks)) (s.on w [] tasks) := by
  cases h with
  | own a => exact .single rfl
  | foreign f => exact .turn rfl quietly_outside

/-- One handle is taken from the registry of an ended channel, closed and let go. -/
theorem quietly_round {closed id : Nat} {rest : Registry Handle} (hw : World.Sound (some ch) w)
    (hkept : ∀ c, w.channelAlive c = true → .channel c ∈ s.kept)
    (hpop : (w.registry ch).popMin? = some ((id, h), rest)) :
    Quietly (s.on w [] (.sweep (.channel ch) closed :: tasks))
      (s.on (((w.setRegistry ch rest).note (.event (.draining id))).closeHandle h) []
        (.sweep (.channel ch) (closed + 1) :: tasks)) := by
  have hset : w.setRegistry ch rest = w.deregister ch id := by
    rw [(Registry.popMin?_eq_some hpop).2]
    rfl
  -- The entry is taken out under the lock, and its handle is closed and dropped when that is released.
  have htake : Quietly (s.on w [] (.enter (.pop (.channel ch) closed) :: tasks)) (s.on (w.setRegistry ch rest) []
      ([.consult h, .note (.event (.draining id)), .close h, .drop h, .sweep (.channel ch) (closed + 1)] ++
        tasks)) := by
    refine quietly_section ?_
    dsimp only [perform]
    rw [show (s.on w [Section.mutex (.pop (.channel ch) closed)] tasks).registry (.channel ch) = w.registry ch from rfl,
      hpop]
    rfl
  have hsound : World.Sound (some ch) ((w.setRegistry ch rest).note (.event (.draining id))) := by
    rw [hset]
    exact hw.shrink ((World.Shrinks.deregister w ch id).trans (.note _ _))
  have hkept' : ∀ c, ((w.setRegistry ch rest).note (.event (.draining id))).channelAlive c = true →
      .channel c ∈ s.kept := by
    intro c hc
    exact hkept c (by simpa using hc)
  refine .turn rfl (htake.trans ((quietly_consult h).trans ((quietly_note _).trans ?_)))
  refine (quietly_closeHandle hsound hkept' h).trans (quietly_drop ?_)
  rintro a rfl
  show World.isConnected (World.close _ a) a = false
  simp [World.isConnected_close]

/-- The handles that an ended channel lists are closed, one after another. -/
theorem quietly_sweep {direction : Direction} {counts : Bool} : ∀ (n : Nat) {w : World} (closed : Nat),
    World.Sound (some ch) w → (∀ c, w.channelAlive c = true → .channel c ∈ s.kept) → w.channelAlive ch = false →
      kindAt? w ch = some (direction, counts) → (w.registry ch).size = n →
      Quietly (s.on w [] (.sweep (.channel ch) closed :: tasks))
        (s.on ((World.drain ch n w closed).1.note (.event (.channelDropped direction (World.drain ch n w closed).2)))
          [] tasks) ∧
      kindAt? (World.drain ch n w closed).1 ch = some (direction, counts)
  | 0, w, closed, hw, hkept, hended, hkind, hsize => by
    have hpop : (w.registry ch).popMin? = none := by
      rw [Registry.popMin?_eq_none_iff]
      exact List.length_eq_zero_iff.1 ((Registry.length_ids _).trans hsize)
    refine ⟨?_, hkind⟩
    obtain ⟨c, hc, hdirection⟩ := Option.map_eq_some_iff.1 hkind
    have hswept : ∀ held, (s.on w held tasks).swept closed (.channel ch) =
        [.note (.event (.channelDropped direction closed))] := by
      intro held
      show ((w.channels[ch]?).map _).toList = _
      rw [hc, ← (Prod.mk.inj hdirection).1]
      rfl
    have htake : Quietly (s.on w [] (.enter (.pop (.channel ch) closed) :: tasks)) (s.on w []
        ([.note (.event (.channelDropped direction closed))] ++ tasks)) := by
      refine quietly_section ?_
      dsimp only [perform]
      have hreg : (s.on w [Section.mutex (.pop (.channel ch) closed)] tasks).registry (.channel ch) =
          w.registry ch := rfl
      rw [hreg, hpop, hswept]
      rfl
    exact .turn rfl (htake.trans (quietly_note _))
  | n + 1, w, closed, hw, hkept, hended, hkind, hsize => by
    -- Closing leaves the registry of an ended channel alone: just the handle that was taken is missing there.
    unfold World.drain
    cases hpop : (w.registry ch).popMin? with
    | none =>
      have hids := Registry.popMin?_eq_none_iff.1 hpop
      rw [← Registry.length_ids, hids] at hsize
      cases hsize
    | some x =>
      obtain ⟨⟨id, h⟩, rest⟩ := x
      have hset : w.setRegistry ch rest = w.deregister ch id := by
        rw [(Registry.popMin?_eq_some hpop).2]
        rfl
      have hended' : ((w.setRegistry ch rest).note (.event (.draining id))).channelAlive ch = false := by
        simpa using hended
      refine (quietly_sweep n (closed + 1) ?_ ?_ ?_ ?_ ?_).imp_left (quietly_round hw hkept hpop).trans
      · rw [hset]
        exact hw.shrink (((World.Shrinks.deregister w ch id).trans (.note _ _)).trans (.closeHandle _ h))
      · intro c hc
        exact hkept c (by simpa using hc)
      · simpa using hended
      · rw [kindAt?_closeHandle]
        show kindAt? (w.setRegistry ch rest) ch = _
        rw [kindAt?_setRegistry, hkind]
      · rw [World.registry_closeHandle_of_ended _ _ hended', World.registry_note, hset, World.registry_deregister,
          if_pos rfl, ← (Registry.popMin?_eq_some hpop).2]
        have hone := Registry.size_popMin? hpop
        omega

/-- What an ended channel lists is closed. -/
theorem quietly_drainAll {c : Channel} (hc : w.channels[ch]? = some c) (hw : World.Sound (some ch) w)
    (hkept : ∀ c, w.channelAlive c = true → .channel c ∈ s.kept) (hended : w.channelAlive ch = false) :
    Quietly (s.on w [] (.drain ch :: tasks)) (s.on (w.drainAll ch c.direction) [] tasks) ∧
      kindAt? (w.drainAll ch c.direction) ch = some (c.direction, c.counts) := by
  have hkind : kindAt? w ch = some (c.direction, c.counts) := by
    unfold kindAt?
    rw [hc]
    rfl
  have hgo : (s.on w [] (.drain ch :: tasks)).turn .go = some ((s.on w [] tasks).carry (.drain ch)) := rfl
  have hdrain : (s.on w [] tasks).carry (.drain ch) =
      if (w.registry ch).size = 0 then s.on w [] tasks else s.on w [] (.sweep (.channel ch) 0 :: tasks) := rfl
  unfold World.drainAll
  dsimp only
  split
  · rename_i hsize
    rw [if_pos hsize] at hdrain
    exact ⟨.single (hgo.trans (congrArg some hdrain)), hkind⟩
  · rename_i hsize
    rw [if_neg hsize] at hdrain
    exact (quietly_sweep _ 0 hw hkept hended hkind rfl).imp_left (.turn (hgo.trans (congrArg some hdrain)))

/-- The fields of a channel go that lists nothing any more. -/
theorem quietly_perish {direction : Direction} {counts : Bool} (hids : (w.registry ch).ids = [])
    (hkind : kindAt? w ch = some (direction, counts)) :
    Quietly (s.on w [] (.perish ch :: tasks)) (s.on (if counts then w.note .signalDead else w) [] tasks) := by
  obtain ⟨c, hc, hcounts⟩ := Option.map_eq_some_iff.1 hkind
  obtain rfl : c.counts = counts := (Prod.mk.inj hcounts).2
  -- The registry is empty by now, so nothing but the signal is left to be freed.
  have hempty : w.registry ch = .empty := Registry.eq_empty_of_ids hids
  have hself : w.setRegistry ch .empty = w := by
    conv_lhs => rw [← hempty]
    exact World.setRegistry_self w ch
  have hgo : (s.on w [] (.perish ch :: tasks)).turn .go = some (s.on w [] ((s.on w [] tasks).remains ch ++ tasks)) := by
    show some ((s.on w [] tasks).carry (.perish ch)) = _
    dsimp only [carry]
    rw [show (s.on w [] tasks).world = w from rfl, hself]
    rfl
  refine .turn hgo ?_
  unfold remains
  rw [show (s.on w [] tasks).world = w from rfl, hempty, World.counts, hc, Option.any_some, List.append_assoc,
    List.append_assoc]
  show Quietly (s.on w [] (_ ++ (_ ++ tasks))) _
  refine (quietly_frees Place.slot _).trans ?_
  cases c.counts with
  | true => exact quietly_note _
  | false => exact .refl _

/-- When the last reference to a channel is let go, the channel ends as it says. -/
theorem quietly_endChannel (hw : World.Sound none w) (halive : w.channelAlive ch = true)
    (hkept : ∀ c, c ≠ ch → w.channelAlive c = true → .channel c ∈ s.kept) (hlast : (s.on w [] tasks).holds ch = false) :
    Quietly (s.on w [] (.leave ch :: tasks)) (s.on (w.endChannel ch) [] tasks) := by
  obtain ⟨c, hc, hcalive⟩ := (Option.any_eq_true _ _).1 halive
  have hgo : (s.on w [] (.leave ch :: tasks)).turn .go = some (s.on (w.markEnded ch) []
      (.enter (.look (.registry (.channel ch))) :: .drain ch :: .perish ch :: tasks)) := by
    show some ((s.on w [] tasks).carry (.leave ch)) = _
    dsimp only [carry]
    rw [hlast, show (s.on w [] tasks).world = w from rfl, halive]
    rfl
  -- It is looked whether there are entries, they are drained, and what remains is freed.
  have hlook : Quietly
      (s.on (w.markEnded ch) [] (.enter (.look (.registry (.channel ch))) :: .drain ch :: .perish ch :: tasks))
      (s.on (w.markEnded ch) [] ([] ++ .drain ch :: .perish ch :: tasks)) := quietly_section rfl
  have hended : (w.markEnded ch).channelAlive ch = false := by simp
  have hc' : (w.markEnded ch).channels[ch]? = some { c with alive := false } := by
    simp [World.markEnded, World.record, World.modifyChannel, hc]
  have hkept' : ∀ x, (w.markEnded ch).channelAlive x = true → .channel x ∈ s.kept := by
    intro x hx
    rw [World.channelAlive_markEnded, Bool.and_eq_true, bne_iff_ne] at hx
    exact hkept x hx.2 hx.1
  have hdrain : Quietly (s.on (w.markEnded ch) [] (.drain ch :: .perish ch :: tasks))
      (s.on ((w.markEnded ch).drainAll ch c.direction) [] (.perish ch :: tasks)) ∧ _ :=
    quietly_drainAll (c := { c with alive := false }) hc' hw.markEnded hkept' hended
  obtain ⟨-, -, hids⟩ := World.drainAll_induct (Q := fun _ => True) (fun _ _ _ _ _ _ _ => trivial)
    (fun _ _ _ => trivial) (w.markEnded ch) c.direction trivial hended
  have hend : w.endChannel ch = if c.counts then ((w.markEnded ch).drainAll ch c.direction).note .signalDead
      else (w.markEnded ch).drainAll ch c.direction := by
    unfold World.endChannel
    rw [hc]
    dsimp only
    rw [if_pos hcalive]
  rw [hend]
  exact .turn hgo (hlook.trans (hdrain.1.trans (quietly_perish hids hdrain.2)))

end Machine

end Conduit.Locking
