/-
The drain of a channel, round by round. A round takes the entry of the least number out of the registry
and closes it, and the loop ends when nothing is left (`Rounds`). A closing does not reach the registry
of a channel that has ended, so the entries closed are those the registry had at the beginning, each
once and in the order of their numbers. What the loop enters in the ledger can be told from the
beginning, too.
-/
import Conduit.Proofs.Wiring.Places
import Conduit.Proofs.Wiring.Sound

namespace Conduit

theorem Registry.entries_popMin? {η : Type} {r t : Registry η} {e : Nat × η} (h : r.popMin? = some (e, t)) :
    r.entries = e :: t.entries := by
  obtain ⟨entries, hs⟩ := r
  cases entries with
  | nil => cases h
  | cons e' rest => cases h; rfl

namespace World

/-- The round of a drain in which the entry `e` is closed. -/
def round (w : World) (ch : ChannelId) (e : Nat × Handle) : World :=
  ((w.deregister ch e.1).note (.event (.draining e.1))).closeHandle e.2

/-- The rounds of a drain, as long as the registry holds anything, with the entries closed in them. -/
inductive Rounds (ch : ChannelId) : World → List (Nat × Handle) → World → Prop
  | done {w : World} (h : (w.registry ch).popMin? = none) : Rounds ch w [] w
  | round {w v : World} {e : Nat × Handle} {rest : Registry Handle} {es : List (Nat × Handle)}
      (h : (w.registry ch).popMin? = some (e, rest)) (more : Rounds ch (w.round ch e) es v) : Rounds ch w (e :: es) v

/-- What the closing of a handle enters in the ledger, newest first: a living output disconnects the
place, and finds it or not; the token is destroyed. -/
def parting (w : World) : Handle → List Deed
  | .own s =>
    match w.subscription? s with
    | some ⟨o, _, some p⟩ =>
      if w.channelAlive o then [.released s, .disconnected s (w.hasPlace o p)] else [.released s]
    | _ => []
  | .foreign _ => []

section

variable {u v w : World} {ch : ChannelId} {e : Nat × Handle} {es : List (Nat × Handle)}

/-! ## One round -/

@[simp] theorem channelAlive_round (o : ChannelId) : (w.round ch e).channelAlive o = w.channelAlive o := by
  rw [round, channelAlive_closeHandle, channelAlive_note, (sameParts_deregister ..).channelAlive]

/-- A round takes one entry out of the registry of an ended channel, and that only. -/
theorem registry_round (ha : w.channelAlive ch = false) {rest : Registry Handle}
    (h : (w.registry ch).popMin? = some (e, rest)) : (w.round ch e).registry ch = rest := by
  have hended : ((w.deregister ch e.1).note (.event (.draining e.1))).channelAlive ch = false := by
    rw [channelAlive_note, (sameParts_deregister ..).channelAlive, ha]
  rw [round, registry_closeHandle_of_ended _ _ hended, registry_note, registry_deregister, if_pos rfl]
  exact (Registry.popMin?_eq_some h).2.symm

/-- The loop is made of such rounds, and that it is given more rounds than there are entries makes no
difference. -/
theorem rounds_drain : ∀ (n extra : Nat) (w : World) (closed : Nat), w.channelAlive ch = false →
    (w.registry ch).size = n →
      Rounds ch w (w.registry ch).entries (drain ch (n + extra) w closed).1 ∧
        (drain ch (n + extra) w closed).2 = closed + n
  | 0, extra, w, closed, _, hn => by
    -- By induction on the number of entries: without any, the fuel that is left does nothing.
    have hnil : (w.registry ch).entries = [] := List.length_eq_zero_iff.1 hn
    have hpop : (w.registry ch).popMin? = none := by
      apply Registry.popMin?_eq_none_iff.2
      simp [Registry.ids, hnil]
    have hdrain : drain ch (0 + extra) w closed = (w, closed) := by
      cases extra with
      | zero => rfl
      | succ extra => simp [drain, hpop]
    rw [hdrain, hnil]
    exact ⟨.done hpop, rfl⟩
  | n + 1, extra, w, closed, ha, hn => by
    rcases hpop : (w.registry ch).popMin? with _ | ⟨e, rest⟩
    · have hids := Registry.popMin?_eq_none_iff.1 hpop
      have hlen : (w.registry ch).ids.length = n + 1 := by simpa [Registry.ids, Registry.size] using hn
      simp [hids] at hlen
    · -- One entry is taken out and closed, and the rest goes on with one entry less.
      have hreg := registry_round ha hpop
      have hsize := Registry.size_popMin? hpop
      have hrest : rest.size = n := by omega
      obtain ⟨hrounds, hcount⟩ := rounds_drain n extra (w.round ch e) (closed + 1)
        (by rw [channelAlive_round, ha]) (by rw [hreg, hrest])
      have hdrain : drain ch (n + 1 + extra) w closed = drain ch (n + extra) (w.round ch e) (closed + 1) := by
        have hset : w.setRegistry ch rest = w.deregister ch e.1 := by
          rw [(Registry.popMin?_eq_some hpop).2]
          rfl
        rw [Nat.add_right_comm, drain, hpop]
        dsimp only
        rw [hset]
        rfl
      rw [hdrain, Registry.entries_popMin? hpop]
      rw [hreg] at hrounds
      exact ⟨.round hpop hrounds, by omega⟩

namespace Rounds

/-- There is one way only in which a drain can go. -/
theorem unique {v' : World} {es' : List (Nat × Handle)} (h : Rounds ch w es v) (h' : Rounds ch w es' v') :
    es = es' ∧ v = v' := by
  induction h generalizing es' with
  | done hnone =>
    cases h' with
    | done _ => exact ⟨rfl, rfl⟩
    | round hsome _ => simp [hnone] at hsome
  | round hsome _ ih =>
    cases h' with
    | done hnone => simp [hsome] at hnone
    | round hsome' more' =>
      rw [hsome] at hsome'
      cases hsome'
      obtain ⟨rfl, rfl⟩ := ih more'
      exact ⟨rfl, rfl⟩

end Rounds

theorem Sound.round (h : Sound (some ch) w) (e : Nat × Handle) : Sound (some ch) (w.round ch e) :=
  h.shrink (((Shrinks.deregister w ch e.1).trans (.note _ _)).trans (.closeHandle _ e.2))

theorem Placed.round (h : Placed w) (e : Nat × Handle) : Placed (w.round ch e) := by
  have hsame : Placed ((w.deregister ch e.1).note (.event (.draining e.1))) :=
    (h.same (.setRegistry ..)).same (.of_eq rfl rfl rfl)
  have hrewires : Rewires .any _ (w.round ch e) := rewire_closeHandle _ e.2
  exact hrewires.induct (P := Placed) (fun _ _ hu hr => hu.rewire hr) hsame

/-! ## The ledger -/

theorem ledger_closeHandle (w : World) (a : Handle) : (w.closeHandle a).ledger = w.parting a ++ w.ledger := by
  cases a with
  | foreign f => rcases closeHandle_foreign w f with hf | ⟨e, hf⟩ <;> rw [hf] <;> rfl
  | own s =>
    show (w.close s).ledger = _
    cases hs : w.isConnected s with
    | true =>
      obtain ⟨o, i, p, hs⟩ := isConnected_iff.1 hs
      rw [ledger_close hs]
      simp only [parting, hs]
      split <;> rfl
    | false =>
      rw [close_of_not_isConnected hs]
      simp only [parting]
      split
      · rename_i hs'
        rw [isConnected, hs'] at hs
        cases hs
      · rfl

theorem parting_congr (hsub : ∀ s : Nat, v.subscription? s = w.subscription? s)
    (ha : ∀ o, v.channelAlive o = w.channelAlive o) (hg : ∀ o, v.signal? o = w.signal? o) (a : Handle) :
    v.parting a = w.parting a := by
  cases a with
  | foreign f => rfl
  | own s => simp only [parting, hsub, ha, hasPlace, hg]

/-- The closing of one handle does not bear on what the closing of another enters. -/
theorem parting_closeHandle (h : Placed w) {a b : Handle} (hab : a ≠ b) :
    (w.closeHandle a).parting b = w.parting b := by
  cases a with
  | foreign f =>
    rcases closeHandle_foreign w f with hf | ⟨x, hf⟩ <;> rw [hf]
    exact parting_congr (fun _ => rfl) (fun _ => rfl) (fun _ => rfl) b
  | own t =>
    cases b with
    | foreign f => rfl
    | own s =>
      have hne : s ≠ t := fun he => hab (by rw [he])
      show (w.close t).parting _ = _
      cases ht : w.isConnected t with
      | false => rw [close_of_not_isConnected ht]
      | true =>
        obtain ⟨o, i, p, ht⟩ := isConnected_iff.1 ht
        simp only [parting, subscription?_close, if_neg hne, channelAlive_close]
        split
        · rename_i o' i' p' hs
          -- The place of another subscription is another one, if the outputs are the same.
          have hplace : (w.close t).hasPlace o' p' = w.hasPlace o' p' := by
            unfold hasPlace
            rw [signal?_close ht]
            split
            · rename_i ho
              obtain ⟨rfl, -⟩ := ho
              have hpp : p' ≠ p := by
                rintro rfl
                exact hne (h.apart s t o' p' (h.token s o' i' p' hs).1 (h.token t o' i p' ht).1)
              rcases hg : w.signal? o' with _ | g
              · rfl
              · have htidy := h.tidy o' g hg
                rw [Option.map_some, Option.any_some, Option.any_some, Bool.eq_iff_iff, Signal.has_iff, Signal.has_iff,
                  Signal.places_without htidy]
                constructor
                · rintro ⟨q, hq, hid⟩
                  exact ⟨q, List.mem_of_mem_filter hq, hid⟩
                · rintro ⟨q, hq, hid⟩
                  exact ⟨q, List.mem_filter.2 ⟨hq, by simpa [hid] using hpp⟩, hid⟩
            · rfl
          rw [hplace]
        · rfl

theorem parting_deregister (e : Nat × Handle) (a : Handle) :
    ((w.deregister ch e.1).note (.event (.draining e.1))).parting a = w.parting a := by
  have hp := sameParts_deregister w ch e.1
  exact parting_congr hp.subscription? hp.channelAlive (fun o => by simp [deregister]) a

/-- What the drain enters in the ledger, as told from its beginning. -/
theorem Rounds.ledger (h : Rounds ch w es v) (hsound : Sound (some ch) w) (hplaced : Placed w)
    (ha : w.channelAlive ch = false) :
    v.ledger = es.reverse.flatMap (fun e => w.parting e.2) ++ w.ledger := by
  induction h with
  | done _ => rfl
  | @round w v e rest es hpop more ih =>
    have hentries := Registry.entries_popMin? hpop
    have hes : es = rest.entries := by
      obtain ⟨hrounds, -⟩ := rounds_drain _ 0 (w.round ch e) 0 (by rw [channelAlive_round, ha]) rfl
      rw [registry_round ha hpop] at hrounds
      exact (more.unique hrounds).1
    have hround : (w.round ch e).ledger = w.parting e.2 ++ w.ledger := by
      rw [World.round, ledger_closeHandle, parting_deregister]
      rfl
    -- Numbers increase, so none of the later handles is this one.
    have hlater : ∀ x ∈ es, (w.round ch e).parting x.2 = w.parting x.2 := by
      intro x hx
      have hmem : x ∈ (w.registry ch).entries := by
        rw [hentries]
        exact List.mem_cons_of_mem _ (hes ▸ hx)
      have hhead : e ∈ (w.registry ch).entries := by
        rw [hentries]
        exact List.mem_cons_self ..
      have hlt : e.1 < x.1 := by
        have hinc := (w.registry ch).increasing
        rw [hentries, List.map_cons, List.pairwise_cons] at hinc
        exact hinc.1 x.1 (List.mem_map_of_mem (hes ▸ hx))
      have hne : e.2 ≠ x.2 := by
        intro he
        have h1 := (hsound.keyed ch e hhead).1
        have h2 := (hsound.keyed ch x hmem).1
        rw [he] at h1
        omega
      have hplaced' : Placed ((w.deregister ch e.1).note (.event (.draining e.1))) :=
        (hplaced.same (.setRegistry ..)).same (.of_eq rfl rfl rfl)
      rw [World.round, parting_closeHandle hplaced' hne, parting_deregister]
    rw [ih (hsound.round e) (hplaced.round e) (by rw [channelAlive_round, ha]), hround, List.reverse_cons,
      List.flatMap_append, List.flatMap_singleton, List.append_assoc]
    congr 1
    exact List.flatMap_congr fun x hx => hlater x (List.mem_reverse.1 hx)

end

end World

end Conduit
