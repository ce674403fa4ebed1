/-
What a drain comes to, but for the log. Closing a subscription does not look at the registry of an
ended channel, so a drain, which takes its handles one at a time, closes what the registry held when
it began, and leaves it empty. It follows that a subscription which is closed already can be left
out of any drain, and that whoever lets it go does nothing.
-/
import Conduit.Proofs.Wiring.Sound

namespace Conduit.World

/-- A wiring without its log. -/
def quiet (w : World) : World := { w with log := [] }

section Quiet

variable {v w : World}

theorem quiet_note (w : World) (e : Entry) : (w.note e).quiet = w.quiet := rfl

theorem exists_log (h : v.quiet = w.quiet) : ∃ log, v = { w with log } := by
  obtain ⟨a, b, c, d, l, e⟩ := v
  cases h
  exact ⟨l, rfl⟩

/-- What does not depend on the log is the same in wirings that differ in that only. -/
theorem eq_of_quiet {α : Type} (f : World → α) (hf : ∀ (w : World) log, f { w with log } = f w)
    (h : v.quiet = w.quiet) :
    f v = f w := by
  obtain ⟨log, rfl⟩ := exists_log h
  exact hf w log

theorem quiet_noteIfCounting (w : World) (o : ChannelId) (e : Entry) : (w.noteIfCounting o e).quiet = w.quiet := by
  unfold noteIfCounting
  split <;> rfl

theorem quiet_disconnect (h : v.quiet = w.quiet) (o : ChannelId) (p : Nat) :
    (v.disconnect o p).quiet = (w.disconnect o p).quiet := by
  obtain ⟨log, rfl⟩ := exists_log h
  have hg : World.signal? { w with log } o = w.signal? o := rfl
  unfold disconnect
  rw [hg]
  rcases w.signal? o with _ | g
  · rfl
  · rcases hd : g.disconnect? p with _ | g' <;> simp only [hd] <;> rfl

theorem quiet_record (h : v.quiet = w.quiet) (d : Deed) : (v.record d).quiet = (w.record d).quiet :=
  eq_of_quiet (fun w => (w.record d).quiet) (fun _ _ => rfl) h

theorem quiet_setRegistry (h : v.quiet = w.quiet) (ch : ChannelId) (r : Registry Handle) :
    (v.setRegistry ch r).quiet = (w.setRegistry ch r).quiet :=
  eq_of_quiet (fun w => (w.setRegistry ch r).quiet) (fun _ _ => rfl) h

theorem quiet_deregister (h : v.quiet = w.quiet) (ch : ChannelId) (s : Nat) :
    (v.deregister ch s).quiet = (w.deregister ch s).quiet :=
  eq_of_quiet (fun w => (w.deregister ch s).quiet) (fun _ _ => rfl) h

theorem quiet_release (h : v.quiet = w.quiet) (s : Nat) (o : ChannelId) :
    (v.release s o).quiet = (w.release s o).quiet :=
  quiet_record (by rw [quiet_noteIfCounting, quiet_noteIfCounting, h]) _

theorem quiet_disconnectFor (h : v.quiet = w.quiet) (s : Nat) (o : ChannelId) (p : Nat) :
    (v.disconnectFor s o p).quiet = (w.disconnectFor s o p).quiet := by
  have hq : (v.noteIfCounting o .disconnected).quiet = (w.noteIfCounting o .disconnected).quiet := by
    rw [quiet_noteIfCounting, quiet_noteIfCounting, h]
  have hp : (v.noteIfCounting o .disconnected).hasPlace o p = (w.noteIfCounting o .disconnected).hasPlace o p :=
    eq_of_quiet (·.hasPlace o p) (fun _ _ => rfl) hq
  simp only [disconnectFor, hp]
  exact quiet_disconnect (quiet_record hq _) o p

theorem quiet_closeAtOutput (h : v.quiet = w.quiet) (s : Nat) (o : ChannelId) (p : Nat) :
    (v.closeAtOutput s o p).quiet = (w.closeAtOutput s o p).quiet := by
  have ha : v.channelAlive o = w.channelAlive o := eq_of_quiet (·.channelAlive o) (fun _ _ => rfl) h
  unfold closeAtOutput
  rw [ha]
  split
  · exact quiet_deregister (quiet_release (quiet_disconnectFor h s o p) s o) o s
  · exact quiet_release h s o

theorem quiet_closeAtInput (h : v.quiet = w.quiet) (s : Nat) (i : ChannelId) :
    (v.closeAtInput s i).quiet = (w.closeAtInput s i).quiet := by
  have ha : v.channelAlive i = w.channelAlive i := eq_of_quiet (·.channelAlive i) (fun _ _ => rfl) h
  unfold closeAtInput
  rw [ha]
  split
  · exact quiet_deregister h i s
  · exact h

/-- The log has no part in what closing does. -/
theorem quiet_close (h : v.quiet = w.quiet) (s : Nat) : (v.close s).quiet = (w.close s).quiet := by
  have hs : v.subscription? s = w.subscription? s := eq_of_quiet (·.subscription? s) (fun _ _ => rfl) h
  have hd : (v.dropToken s).quiet = (w.dropToken s).quiet :=
    eq_of_quiet (fun w => (w.dropToken s).quiet) (fun _ _ => rfl) h
  unfold close
  rw [hs]
  split
  · exact quiet_closeAtInput (quiet_closeAtOutput hd s _ _) s _
  · exact h

theorem quiet_closeHandle (h : v.quiet = w.quiet) (a : Handle) : (v.closeHandle a).quiet = (w.closeHandle a).quiet := by
  cases a with
  | own s => exact quiet_close h s
  | foreign f =>
    obtain ⟨log, rfl⟩ := exists_log h
    simp only [closeHandle]
    rcases w.foreigns[f]? with _ | g <;> rfl

end Quiet

/-! ## Registries of ended channels -/

section Ended

variable {w : World} {ch : ChannelId} {r : Registry Handle}

theorem modifyChannel_comm {a b : ChannelId} (hab : a ≠ b) (f g : Channel → Channel) :
    (w.modifyChannel a f).modifyChannel b g = (w.modifyChannel b g).modifyChannel a f := by
  simp only [modifyChannel, List.modify_modify_ne _ _ _ hab]

theorem registry_setRegistry_of_ne {o : ChannelId} (ho : o ≠ ch) : (w.setRegistry ch r).registry o = w.registry o := by
  rw [registry, setRegistry, channels_modifyChannel, if_neg (Ne.symm ho), registry]

theorem counts_setRegistry (o : ChannelId) : (w.setRegistry ch r).counts o = w.counts o := by
  rw [counts, setRegistry, channels_modifyChannel, counts]
  split <;> cases w.channels[o]? <;> rfl

theorem setRegistry_noteIfCounting (o : ChannelId) (e : Entry) :
    (w.setRegistry ch r).noteIfCounting o e = (w.noteIfCounting o e).setRegistry ch r := by
  rw [noteIfCounting, counts_setRegistry, noteIfCounting]
  split <;> rfl

theorem setRegistry_disconnect {o : ChannelId} (ho : o ≠ ch) (p : Nat) :
    (w.setRegistry ch r).disconnect o p = (w.disconnect o p).setRegistry ch r := by
  unfold disconnect
  rw [signal?_setRegistry]
  rcases w.signal? o with _ | g
  · rfl
  · rcases hd : g.disconnect? p with _ | g' <;> simp only [hd]
    · rfl
    · exact modifyChannel_comm (Ne.symm ho) _ _

theorem setRegistry_disconnectFor {o : ChannelId} (ho : o ≠ ch) (s p : Nat) :
    (w.setRegistry ch r).disconnectFor s o p = (w.disconnectFor s o p).setRegistry ch r := by
  have hp : ∀ v : World, (v.setRegistry ch r).hasPlace o p = v.hasPlace o p := fun v => by
    rw [hasPlace, signal?_setRegistry, hasPlace]
  simp only [disconnectFor, setRegistry_noteIfCounting, hp]
  exact setRegistry_disconnect (w := World.record _ _) ho p

theorem setRegistry_release (s : Nat) (o : ChannelId) :
    (w.setRegistry ch r).release s o = (w.release s o).setRegistry ch r := by
  rw [release, setRegistry_noteIfCounting]
  rfl

theorem setRegistry_deregister {o : ChannelId} (ho : o ≠ ch) (s : Nat) :
    (w.setRegistry ch r).deregister o s = (w.deregister o s).setRegistry ch r := by
  rw [deregister, registry_setRegistry_of_ne ho]
  exact modifyChannel_comm (Ne.symm ho) _ _

/-- Closing does not look at the registry of a channel that has ended. -/
theorem setRegistry_close (hch : w.channelAlive ch = false) (s : Nat) :
    (w.setRegistry ch r).close s = (w.close s).setRegistry ch r := by
  cases hs : w.isConnected s with
  | false => rw [close_of_not_isConnected hs, close_of_not_isConnected (by exact hs)]
  | true =>
    obtain ⟨o, i, p, hs⟩ := isConnected_iff.1 hs
    -- At a living end the registry is another one than that of the ended channel.
    have hout : ∀ v : World, v.channelAlive ch = false →
        (v.setRegistry ch r).closeAtOutput s o p = (v.closeAtOutput s o p).setRegistry ch r := fun v hv => by
      unfold closeAtOutput
      rw [channelAlive_setRegistry]
      split
      · rename_i ho
        have hne : o ≠ ch := fun he => by rw [he, hv] at ho; cases ho
        rw [setRegistry_disconnectFor hne, setRegistry_release, setRegistry_deregister hne]
      · exact setRegistry_release s o
    have hin : ∀ v : World, v.channelAlive ch = false →
        (v.setRegistry ch r).closeAtInput s i = (v.closeAtInput s i).setRegistry ch r := fun v hv => by
      unfold closeAtInput
      rw [channelAlive_setRegistry]
      split
      · rename_i hi
        exact setRegistry_deregister (fun he => by rw [he, hv] at hi; cases hi) s
      · rfl
    rw [close_of_token hs, close_of_token (w := w.setRegistry ch r) hs]
    have hd : (w.setRegistry ch r).dropToken s = (w.dropToken s).setRegistry ch r := rfl
    rw [hd, hout (w.dropToken s) hch, hin _ (by rw [(SameParts.closeAtOutput ..).channelAlive]; exact hch)]
    rfl

theorem setRegistry_closeHandle (hch : w.channelAlive ch = false) (a : Handle) :
    (w.setRegistry ch r).closeHandle a = (w.closeHandle a).setRegistry ch r := by
  cases a with
  | own s => exact setRegistry_close hch s
  | foreign f =>
    have hf : (w.setRegistry ch r).foreigns = w.foreigns := rfl
    unfold closeHandle
    simp only [hf]
    rcases w.foreigns[f]? with _ | g <;> rfl

end Ended

/-! ## Drains -/

theorem quiet_closeAll : ∀ (hs : List Handle) {v w : World}, v.quiet = w.quiet →
    (v.closeAll hs).quiet = (w.closeAll hs).quiet
  | [], _, _, h => h
  | a :: hs, v, w, h => quiet_closeAll hs (quiet_closeHandle (by rw [quiet_note, quiet_note, h]) a)

theorem setRegistry_closeAll {ch : ChannelId} {r : Registry Handle} : ∀ (hs : List Handle) {w : World},
    w.channelAlive ch = false → (w.setRegistry ch r).closeAll hs = (w.closeAll hs).setRegistry ch r
  | [], _, _ => rfl
  | a :: hs, w, hch => by
    let e : Entry := .event (.draining (w.handleId a))
    have hstep : ((w.setRegistry ch r).note e).closeHandle a = ((w.note e).closeHandle a).setRegistry ch r :=
      setRegistry_closeHandle (w := w.note e) hch a
    have halive : ((w.note e).closeHandle a).channelAlive ch = false := by
      rw [channelAlive_closeHandle]
      exact hch
    show (((w.setRegistry ch r).note e).closeHandle a).closeAll hs =
      (((w.note e).closeHandle a).closeAll hs).setRegistry ch r
    rw [hstep, setRegistry_closeAll hs halive]

theorem setRegistry_setRegistry (w : World) (ch : ChannelId) (r t : Registry Handle) :
    (w.setRegistry ch r).setRegistry ch t = w.setRegistry ch t := by
  simp only [setRegistry, modifyChannel, List.modify_modify_eq]
  rfl

/-- To put the registry of a channel in its place changes nothing. -/
theorem setRegistry_self (w : World) (ch : ChannelId) : w.setRegistry ch (w.registry ch) = w := by
  have hc : (w.channels.modify ch fun c => { c with registry := w.registry ch }) = w.channels := by
    refine List.ext_getElem? fun i => ?_
    simp only [List.getElem?_modify]
    by_cases hi : ch = i
    · subst hi
      rcases h : w.channels[ch]? with _ | c <;> simp [registry, h]
    · simp [hi]
  simp only [setRegistry, modifyChannel, hc]

theorem markEnded_setRegistry (w : World) (ch : ChannelId) (r : Registry Handle) :
    (w.setRegistry ch r).markEnded ch = (w.markEnded ch).setRegistry ch r := by
  simp only [markEnded, setRegistry, modifyChannel, record, List.modify_modify_eq]
  rfl

/-- A drain closes what the registry held when it began, and leaves it empty. -/
theorem quiet_drain {ch : ChannelId} : ∀ (n : Nat) (w : World) (closed : Nat), w.channelAlive ch = false →
    (w.registry ch).size = n →
      (drain ch n w closed).1.quiet = ((w.closeAll (w.registry ch).handles).setRegistry ch .empty).quiet
  | 0, w, closed, _, hn => by
    have he : w.registry ch = .empty := Registry.eq_empty_of_ids (by simpa [Registry.ids, Registry.size] using hn)
    have hself := setRegistry_self w ch
    rw [he] at hself ⊢
    show w.quiet = (w.setRegistry ch .empty).quiet
    rw [hself]
  | n + 1, w, closed, hch, hn => by
    unfold drain
    rcases hp : (w.registry ch).popMin? with _ | ⟨⟨id, a⟩, rest⟩
    · have hnil := Registry.popMin?_eq_none_iff.1 hp
      rw [Registry.eq_empty_of_ids hnil] at hn
      cases hn
    · obtain ⟨-, hrest⟩ := Registry.popMin?_eq_some hp
      have hsize := Registry.size_popMin? hp
      let e : Entry := .event (.draining id)
      have hset : w.setRegistry ch rest = w.deregister ch id := by rw [hrest]; rfl
      have hreg : (((w.setRegistry ch rest).note e).closeHandle a).registry ch = rest := by
        rw [registry_closeHandle_of_ended _ _ (by rw [channelAlive_note, channelAlive_setRegistry]; exact hch),
          registry_note, hset, registry_deregister, if_pos rfl, hrest]
      have halive : ((w.note e).closeHandle a).channelAlive ch = false := by
        rw [channelAlive_closeHandle]
        exact hch
      -- To take an entry out of the ended registry and to close its handle can change places, so that all
      -- entries can be taken out at the end.
      have hstep : ((w.setRegistry ch rest).note e).closeHandle a = ((w.note e).closeHandle a).setRegistry ch rest :=
        setRegistry_closeHandle (w := w.note e) hch a
      show (drain ch n (((w.setRegistry ch rest).note e).closeHandle a) (closed + 1)).1.quiet = _
      rw [quiet_drain n _ _ (by rw [hstep, channelAlive_setRegistry]; exact halive) (by rw [hreg]; omega), hreg,
        hstep, setRegistry_closeAll _ halive, setRegistry_setRegistry, Registry.handles_popMin? hp]
      exact quiet_setRegistry (quiet_closeAll rest.handles (quiet_closeHandle (by rfl) a)) ch .empty

/-- The end of a channel closes what its registry holds, and leaves that empty. -/
theorem quiet_endChannel {w : World} {ch : ChannelId} (ha : w.channelAlive ch = true) : (w.endChannel ch).quiet =
    (((w.markEnded ch).closeAll (w.registry ch).handles).setRegistry ch .empty).quiet := by
  obtain ⟨c, hc, hal⟩ := (Option.any_eq_true _ _).1 ha
  -- But for the log, to drain is to close all that was listed, and to empty the registry then.
  have hdrain : ∀ direction, ((w.markEnded ch).drainAll ch direction).quiet =
      (((w.markEnded ch).closeAll (w.registry ch).handles).setRegistry ch .empty).quiet := fun direction => by
    have hq := quiet_drain ((w.markEnded ch).registry ch).size (w.markEnded ch) 0 (by simp) rfl
    rw [registry_markEnded] at hq
    rw [← hq]
    unfold drainAll
    dsimp only
    rw [registry_markEnded]
    split
    · rename_i hsize
      rw [hsize]
      rfl
    · rfl
  unfold endChannel
  rw [hc]
  simp only [hal, if_true]
  split
  · rw [quiet_note, hdrain]
  · rw [hdrain]

/-! ## Closed subscriptions -/

section Closed

variable {w : World} {s : Nat}

/-- To let go of a closed subscription does nothing, whoever else holds it. -/
theorem letGo_of_not_isConnected (hs : w.isConnected s = false) (held : Ref → Bool) :
    w.letGo held (.own s) = w := by
  unfold letGo
  simp only [close_of_not_isConnected hs, ite_self]

theorem isConnected_closeHandle_of_not (hs : w.isConnected s = false) (a : Handle) :
    (w.closeHandle a).isConnected s = false := by
  cases a with
  | own k =>
    show (w.close k).isConnected s = false
    rw [isConnected_close, hs, Bool.false_and]
  | foreign f =>
    rcases closeHandle_foreign w f with hf | ⟨e, hf⟩ <;> rw [hf]
    · exact hs
    · exact hs

/-- A closed subscription can be left out when handles are closed. -/
theorem quiet_closeAll_of_not_isConnected (s : Nat) : ∀ (hs : List Handle) {v w : World}, v.quiet = w.quiet →
    w.isConnected s = false → (v.closeAll hs).quiet = (w.closeAll (hs.filter (· != .own s))).quiet
  | [], _, _, h, _ => h
  | a :: hs, v, w, h, hc => by
    have hv : v.isConnected s = false := (eq_of_quiet (·.isConnected s) (fun _ _ => rfl) h).trans hc
    by_cases ha : a = .own s
    · subst ha
      have hclose : (v.note (.event (.draining s))).close s = v.note (.event (.draining s)) :=
        close_of_not_isConnected (by exact hv)
      have hkept : (Handle.own s :: hs).filter (· != .own s) = hs.filter (· != .own s) := by simp
      rw [hkept]
      refine quiet_closeAll_of_not_isConnected s hs (v := (v.note (.event (.draining s))).close s) ?_ hc
      rw [hclose, quiet_note, h]
    · have hkept : (a :: hs).filter (· != .own s) = a :: hs.filter (· != .own s) := by simp [ha]
      rw [hkept]
      exact quiet_closeAll_of_not_isConnected s hs (quiet_closeHandle (by rw [quiet_note, quiet_note, h]) a)
        (isConnected_closeHandle_of_not (by exact hc) a)

/-- A closed subscription can be taken out of the registry of a channel before that ends. -/
theorem quiet_endChannel_of_not_isConnected {dying : Option ChannelId} (hw : Sound dying w) {ch : ChannelId}
    (ha : w.channelAlive ch = true) (hs : w.isConnected s = false) (hm : (s, .own s) ∈ (w.registry ch).entries) :
    (w.endChannel ch).quiet = ((w.deregister ch s).endChannel ch).quiet := by
  -- The number of a handle tells it, so to erase the number is to leave the handle out.
  have hkept : ((w.registry ch).erase s).handles = (w.registry ch).handles.filter (· != .own s) := by
    have he : ∀ e ∈ (w.registry ch).entries, (e.1 != s) = (e.2 != Handle.own s) := fun e hm' => by
      rw [Bool.eq_iff_iff, bne_iff_ne, bne_iff_ne]
      constructor
      · rintro hne hown
        have hkey := (hw.keyed ch e hm').1
        rw [hown] at hkey
        exact hne hkey
      · rintro hne hkey
        exact hne (Registry.handle_unique (hkey ▸ hm') hm)
    rw [Registry.handles, Registry.handles, List.filter_map]
    exact congrArg _ (List.filter_congr he)
  have hreg : (w.deregister ch s).registry ch = (w.registry ch).erase s := by
    rw [registry_deregister, if_pos rfl]
  rw [quiet_endChannel ha, quiet_endChannel (by rw [(sameParts_deregister ..).channelAlive]; exact ha), hreg, hkept,
    deregister, markEnded_setRegistry, setRegistry_closeAll _ (by simp), setRegistry_setRegistry]
  exact quiet_setRegistry (quiet_closeAll_of_not_isConnected s _ (w := w.markEnded ch) rfl hs) ch .empty

end Closed

/-- A subscription with which nothing can be done any more: to close it or to let it go changes
nothing, and what closes many subscriptions leaves the same behind without it. -/
structure Inert (w : World) (s : Nat) : Prop where
  close : w.close s = w
  letGo : ∀ held, w.letGo held (.own s) = w
  closeAll : ∀ hs, (w.closeAll hs).quiet = (w.closeAll (hs.filter (· != .own s))).quiet
  endChannel : ∀ ch, w.channelAlive ch = true → (s, .own s) ∈ (w.registry ch).entries →
    (w.endChannel ch).quiet = ((w.deregister ch s).endChannel ch).quiet

/-- Closed subscriptions are inert. -/
theorem Sound.inert {w : World} (hw : Sound none w) {s : Nat} (hs : w.isConnected s = false) : Inert w s where
  close := close_of_not_isConnected hs
  letGo := letGo_of_not_isConnected hs
  closeAll list := quiet_closeAll_of_not_isConnected s list rfl hs
  endChannel _ ha hm := quiet_endChannel_of_not_isConnected hw ha hs hm

end Conduit.World
