/-
Handles that are closed or let go one after another. What the log tells of closings (`told`) and which
handles stay connected can be said from how things were before the first of them, because closing one
handle changes nothing for the others. Letting handles go closes those that nothing else holds.
-/
import Conduit.Proofs.Wiring.Scene

namespace Conduit

/-- Whether an entry tells that a handle is taken out to be closed, or that one is closed. -/
def Entry.tells : Entry → Bool
  | .event (.draining _) => true
  | .event (.closed _) => true
  | .foreignClose _ => true
  | _ => false

namespace World

variable {w v : World} {a b : Handle} {s : Nat}

/-! ## What the log tells of closings -/

/-- What the log tells of closings, the newest first. -/
def told (w : World) : List Entry := w.log.filter Entry.tells

theorem told_note {e : Entry} (h : e.tells = false) : (w.note e).told = w.told :=
  List.filter_cons_of_neg (by rw [h]; exact Bool.false_ne_true)

theorem told_noteIfCounting (o : ChannelId) {e : Entry} (h : e.tells = false) :
    (w.noteIfCounting o e).told = w.told := by
  unfold noteIfCounting
  split
  · exact told_note h
  · rfl

theorem told_disconnect (o : ChannelId) (p : Nat) : (w.disconnect o p).told = w.told := by
  unfold disconnect
  split
  · rfl
  · split
    · rfl
    · exact told_note rfl

theorem told_closeAtOutput (o : ChannelId) (p : Nat) : (w.closeAtOutput s o p).told = w.told := by
  have hrelease : ∀ u : World, (u.release s o).told = u.told := fun u => told_noteIfCounting (w := u) o rfl
  unfold closeAtOutput
  split
  · show ((w.disconnectFor s o p).release s o).told = w.told
    rw [hrelease, disconnectFor, told_disconnect]
    exact told_noteIfCounting o rfl
  · exact hrelease w

/-- What there is to tell when a handle is closed. -/
def closing (w : World) : Handle → List Entry
  | .own s => if w.isConnected s then [.event (.closed s)] else []
  | .foreign f => ((w.foreigns[f]?).map fun g => .foreignClose g.name).toList

theorem told_closeHandle (w : World) (a : Handle) : (w.closeHandle a).told = w.closing a ++ w.told := by
  cases a with
  | own s =>
    show (w.close s).told = _
    cases hs : w.isConnected s with
    | false =>
      rw [close_of_not_isConnected hs, closing, hs]
      rfl
    | true =>
      obtain ⟨o, i, p, hsub⟩ := isConnected_iff.1 hs
      have hinput : ∀ u : World, (u.closeAtInput s i).told = u.told := by
        intro u
        unfold closeAtInput
        split <;> rfl
      rw [close_of_token hsub, closing, hs, if_pos rfl]
      show .event (.closed s) :: (((w.dropToken s).closeAtOutput s o p).closeAtInput s i).told = _
      rw [hinput, told_closeAtOutput]
      rfl
  | foreign f =>
    unfold closeHandle closing
    dsimp only
    rcases w.foreigns[f]? with _ | g
    · rfl
    · rfl

/-! ## Closing one handle -/

theorem handleId_closeHandle (w : World) (a b : Handle) : (w.closeHandle a).handleId b = w.handleId b :=
  (Shrinks.closeHandle w a).handleId b

theorem foreigns_closeHandle_own (w : World) (s : Nat) : (w.closeHandle (.own s)).foreigns = w.foreigns :=
  foreigns_close ..

theorem isConnected_closeHandle_foreign (w : World) (f s : Nat) :
    (w.closeHandle (.foreign f)).isConnected s = w.isConnected s := by
  rcases closeHandle_foreign w f with hf | ⟨e, hf⟩ <;> rw [hf]
  rfl

theorem foreigns_closeHandle_foreign (w : World) (f k : Nat) : (w.closeHandle (.foreign f)).foreigns[k]? =
    (w.foreigns[k]?).map fun g => if k = f then { g with connected := false } else g := by
  unfold closeHandle
  dsimp only
  rcases hf : w.foreigns[f]? with _ | g
  · by_cases hk : k = f
    · rw [hk, hf]
      rfl
    · simp [hk]
  · show (w.foreigns.modify f _)[k]? = _
    rw [List.getElem?_modify]
    by_cases hk : f = k
    · subst hk
      simp
    · simp [hk, Ne.symm hk]

/-- What is closed is not connected afterwards, and all else is as before. -/
theorem handleConnected_closeHandle (w : World) (a b : Handle) :
    (w.closeHandle a).handleConnected b = (w.handleConnected b && b != a) := by
  cases a with
  | own s =>
    cases b with
    | own t =>
      show (w.close s).isConnected t = (w.isConnected t && Handle.own t != .own s)
      have hsame : (Handle.own t != .own s) = (t != s) := by
        rw [Bool.eq_iff_iff, bne_iff_ne, bne_iff_ne, ne_eq, Handle.own.injEq]
      rw [isConnected_close, hsame]
    | foreign k =>
      unfold handleConnected
      dsimp only
      rw [foreigns_closeHandle_own]
      exact (Bool.and_true _).symm
  | foreign f =>
    cases b with
    | own t =>
      show (w.closeHandle (.foreign f)).isConnected t = _
      rw [isConnected_closeHandle_foreign]
      exact (Bool.and_true _).symm
    | foreign k =>
      unfold handleConnected
      dsimp only
      rw [foreigns_closeHandle_foreign, Option.any_map]
      by_cases hk : k = f
      · simp [hk]
      · simp [hk]

/-- Closing another handle leaves what there is to tell of this one. -/
theorem closing_closeHandle (hab : a ≠ b) : (w.closeHandle a).closing b = w.closing b := by
  cases b with
  | own t =>
    have hconnected : (w.closeHandle a).isConnected t = w.isConnected t := by
      have h := handleConnected_closeHandle w a (.own t)
      rwa [bne_iff_ne.2 (Ne.symm hab), Bool.and_true] at h
    unfold closing
    dsimp only
    rw [hconnected]
  | foreign k =>
    unfold closing
    dsimp only
    cases a with
    | own s => rw [foreigns_closeHandle_own]
    | foreign f =>
      have hk : k ≠ f := by
        rintro rfl
        exact hab rfl
      simp [foreigns_closeHandle_foreign, hk]

/-! ## Closing all -/

/-- What there is to tell when handles are taken out and closed, in the order of time. -/
def closings (w : World) (hs : List Handle) : List Entry :=
  hs.flatMap fun a => .event (.draining (w.handleId a)) :: w.closing a

theorem told_closeAll : ∀ (hs : List Handle), hs.Nodup → ∀ (w : World),
    (w.closeAll hs).told = (w.closings hs).reverse ++ w.told
  | [], _, _ => rfl
  | a :: hs, hn, w => by
    obtain ⟨ha, hn⟩ := List.nodup_cons.1 hn
    let e : Entry := .event (.draining (w.handleId a))
    have hfirst : ((w.note e).closeHandle a).told = w.closing a ++ e :: w.told := told_closeHandle (w.note e) a
    -- What the later handles have to tell does not depend on the first having been closed.
    have hrest : ((w.note e).closeHandle a).closings hs = w.closings hs := by
      apply List.flatMap_congr
      intro b hb
      have hab : a ≠ b := fun he => ha (he ▸ hb)
      rw [handleId_closeHandle, closing_closeHandle hab]
      rfl
    have hreverse : (w.closing a).reverse = w.closing a := by
      cases a with
      | own s =>
        unfold closing
        dsimp only
        split <;> rfl
      | foreign f =>
        unfold closing
        dsimp only
        cases w.foreigns[f]? <;> rfl
    show (((w.note e).closeHandle a).closeAll hs).told = (e :: w.closing a ++ w.closings hs).reverse ++ w.told
    rw [told_closeAll hs hn, hrest, hfirst]
    simp [hreverse]

theorem handleConnected_closeAll : ∀ (hs : List Handle) (w : World) (b : Handle),
    (w.closeAll hs).handleConnected b = (w.handleConnected b && !hs.contains b)
  | [], w, b => (Bool.and_true _).symm
  | a :: hs, w, b => by
    let e : Entry := .event (.draining (w.handleId a))
    show (((w.note e).closeHandle a).closeAll hs).handleConnected b = _
    rw [handleConnected_closeAll hs, handleConnected_closeHandle, List.contains_cons, Bool.not_or, ← Bool.and_assoc]
    rfl

/-! ## Letting all go -/

/-- Closes subscriptions one after another. -/
def closeEach (w : World) (ss : List SubscriptionId) : World := ss.foldl close w

theorem isConnected_closeEach : ∀ (ss : List SubscriptionId) (w : World) (t : Nat),
    (w.closeEach ss).isConnected t = (w.isConnected t && !ss.contains t)
  | [], _, _ => (Bool.and_true _).symm
  | s :: ss, w, t => by
    show ((w.close s).closeEach ss).isConnected t = _
    rw [isConnected_closeEach ss, isConnected_close, List.contains_cons, Bool.not_or, ← Bool.and_assoc]
    rfl

/-- The subscription that is closed when a handle is let go: a connected one that nothing else holds. -/
def lost? (w : World) (held : Ref → Bool) : Handle → Option SubscriptionId
  | .own s => if w.isConnected s && !held (.handle (.own s)) && !w.isRegistered (.own s) then some s else none
  | .foreign _ => none

variable {held : Ref → Bool}

theorem lost?_eq_some_iff : w.lost? held a = some s ↔ a = .own s ∧ w.isConnected s = true ∧
    held (.handle (.own s)) = false ∧ w.isRegistered (.own s) = false := by
  cases a with
  | foreign f => exact iff_of_false nofun nofun
  | own t =>
    unfold lost?
    dsimp only
    rw [Option.ite_none_right_eq_some, Bool.and_eq_true, Bool.and_eq_true, Bool.not_eq_true', Bool.not_eq_true',
      Option.some.injEq, Handle.own.injEq]
    constructor
    · rintro ⟨⟨⟨hc, hh⟩, hr⟩, rfl⟩
      exact ⟨rfl, hc, hh, hr⟩
    · rintro ⟨rfl, hc, hh, hr⟩
      exact ⟨⟨⟨hc, hh⟩, hr⟩, rfl⟩

theorem letGo_eq (w : World) (held : Ref → Bool) (a : Handle) :
    w.letGo held a = w.closeEach (w.lost? held a).toList := by
  cases a with
  | foreign f => rfl
  | own s =>
    unfold letGo lost?
    dsimp only
    cases hs : w.isConnected s with
    | false => simp [closeEach, close_of_not_isConnected hs]
    | true =>
      cases held (.handle (.own s)) with
      | true => rfl
      | false =>
        cases w.isRegistered (.own s) with
        | true => rfl
        | false => rfl

/-- Closing another subscription does not take this one off a channel. -/
theorem listed_close (hw : Sound none w) {k : Nat} (hs : w.isConnected s = true) (hne : s ≠ k) :
    (w.close k).isRegistered (.own s) = w.isRegistered (.own s) := by
  have hconnected : (w.close k).isConnected s = true := by
    rw [isConnected_close, hs, Bool.true_and]
    exact bne_iff_ne.2 hne
  rw [Bool.eq_iff_iff, isRegistered_own_iff (hw.shrink (.close w k)), isRegistered_own_iff hw]
  constructor
  · rintro ⟨ch, ha, hm⟩
    exact ⟨ch, (channelAlive_close w k ch).symm.trans ha, (Shrinks.close w k).registry ch _ hm⟩
  · rintro ⟨ch, ha, hm⟩
    exact ⟨ch, (channelAlive_close w k ch).trans ha, mem_registry_close hconnected hm⟩

/-- What is closed when another handle is let go does not change what is closed for this one. -/
theorem lost?_letGo (hw : Sound none w) (hab : a ≠ b) : (w.letGo held a).lost? held b = w.lost? held b := by
  rw [letGo_eq]
  rcases hlost : w.lost? held a with _ | k
  · rfl
  cases b with
  | foreign f => rfl
  | own s =>
    obtain ⟨rfl, -⟩ := lost?_eq_some_iff.1 hlost
    have hne : s ≠ k := by
      rintro rfl
      exact hab rfl
    show (w.close k).lost? held (.own s) = _
    unfold lost?
    dsimp only
    rw [isConnected_close, bne_iff_ne.2 hne, Bool.and_true]
    cases hs : w.isConnected s with
    | false => rfl
    | true => rw [listed_close hw hs hne]

/-- To let handles go, each once, is to close those that nothing else holds. -/
theorem settleAll_handles : ∀ (hs : List Handle), hs.Nodup → ∀ {w : World}, Sound none w →
    w.settleAll held (hs.map .handle) = w.closeEach (hs.filterMap (w.lost? held))
  | [], _, _, _ => rfl
  | a :: hs, hn, w, hw => by
    obtain ⟨ha, hn⟩ := List.nodup_cons.1 hn
    have hsound : Sound none (w.letGo held a) := by
      have htorn : Torn held w (w.letGo held a) := torn_letGo w a
      exact hw.torn htorn
    have hrest : hs.filterMap ((w.letGo held a).lost? held) = hs.filterMap (w.lost? held) := by
      apply List.filterMap_congr
      intro b hb
      have hab : a ≠ b := fun he => ha (he ▸ hb)
      exact lost?_letGo hw hab
    show (w.letGo held a).settleAll held (hs.map .handle) = _
    rw [settleAll_handles hs hn hsound, hrest, letGo_eq, List.filterMap_cons]
    rcases w.lost? held a with _ | s
    · rfl
    · rfl

/-! ## What handles show -/

/-- A handle goes on to show the number that it shows. -/
theorem Act.handleId {may : License} (h : Act may w v) (ha : w.Knows a) : v.Knows a ∧ v.handleId a = w.handleId a := by
  have hshrinks : ∀ {u}, Shrinks w u → u.Knows a ∧ u.handleId a = w.handleId a := fun hs => ⟨hs.knows ha, hs.handleId a⟩
  cases h with
  | relog log => exact ⟨ha, rfl⟩
  | step hs =>
    cases hs with
    | note e => exact hshrinks (.note w e)
    | close s => exact hshrinks (.close w s)
    | deny f => exact hshrinks (.deny w f)
    | markDead c => exact hshrinks (.markDead w c)
    | endChannel ch =>
      -- Round by round, for the end of a channel is made of them.
      refine endChannel_induct (fun u => u.Knows a ∧ u.handleId a = w.handleId a) ⟨ha, rfl⟩ (fun _ => ⟨ha, rfl⟩) ?_ ?_
        fun _ hu _ _ => hu
      · intro u id b e hu _ _
        have hround := ((Shrinks.deregister u ch id).trans (.note _ e)).trans (.closeHandle _ b)
        exact ⟨hround.knows hu.1, (hround.handleId a).trans hu.2⟩
      · intro u e hu
        exact hu
  | create name layout => exact ⟨knows_create name layout ha, handleId_create ..⟩
  | subscribe _ _ _ hin hs =>
    obtain ⟨p, slot, g, g', hsub⟩ := subscribed_of_subscribe? hin hs
    exact ⟨hsub.knows ha, hsub.handleId a⟩
  | register _ _ _ => exact ⟨ha, rfl⟩
  | deregister _ ch s => exact ⟨ha, rfl⟩
  | adopt g _ =>
    refine ⟨knows_adopt g ha, ?_⟩
    cases a with
    | own s => rfl
    | foreign f => exact handleId_foreign_adopt w g f ha
  | disconnectByHand _ o p =>
    have hparts := sameParts_disconnectByHand w o p
    refine ⟨hparts.knows ha, ?_⟩
    cases a with
    | own s => rfl
    | foreign f => rw [World.handleId, hparts.foreigns, World.handleId]

theorem Acts.handleId {may : License} (h : Acts may w v) (ha : w.Knows a) :
    v.Knows a ∧ v.handleId a = w.handleId a := by
  refine h.induct (P := fun u => u.Knows a ∧ u.handleId a = w.handleId a) ?_ ⟨ha, rfl⟩
  intro u u' hu hact
  obtain ⟨hknows, hid⟩ := hact.handleId hu.1
  exact ⟨hknows, hid.trans hu.2⟩

end World

end Conduit
