import Apdl.Agents.ClientCache.Invariant

set_option autoImplicit false

/-!
# Slots, leases and versions of the client cache

Every step of the cache keeps its invariant. From it: the slot counter counts the clients that are
created, live or closing, within the bound; a client is closed once, after its last lease; a lease is
for the identity that was asked for, and not for one that the scope has left behind; and `aclose`
returns with no slot occupied.

## Main results

* `client_cache_safe` — the guarantees of the cache.
-/

namespace Apdl.Agents.ClientCache

open Rows

variable {s s' : State}

/-! ## The sections keep the invariant -/

lemma detachLocked_moveCall (e k : ℕ) (x : Entry) (c : Call) (phase : Phase) :
    (s.detachLocked e x).moveCall k c phase = (s.moveCall k c phase).detachLocked e x := by
  unfold State.detachLocked
  split_ifs <;> rfl

variable {e k : ℕ} {x : Entry}

lemma get_put {x' : Entry} (hx : s.heap[e]? = some x) (j : ℕ) :
    (s.put e x').heap[j]? = if j = e then some x' else s.heap[j]? :=
  getElem?_set_of_some hx

lemma retireIdleConflict_spec (i : Identity) :
    ∀ (l : List ℕ) (s : State), Inv s → l ⊆ s.entries →
      let r := State.retireIdleConflict i s l
      Inv r.1 ∧ r.1.calls = s.calls ∧ r.1.closed = s.closed ∧ r.1.drains = s.drains ∧
        r.1.maxEntries = s.maxEntries ∧ r.1.occupiedSlots = s.occupiedSlots ∧
        r.1.leases = s.leases ∧
        (∀ e ∈ r.1.entries, e ∈ s.entries) ∧
        (∀ (e : ℕ) (y : Entry), r.1.heap[e]? = some y → ∃ y₀ : Entry, s.heap[e]? = some y₀ ∧
          y.identity = y₀.identity ∧ (y.isIdle = true → y₀.isIdle = true) ∧
          (y₀.retiring = true → y.retiring = true)) ∧
        (r.2 = none → r.1.entries = s.entries ∧ ∀ e ∈ l, ∀ y : Entry, r.1.heap[e]? = some y →
          y.identity.scope = i.scope → y.identity ≠ i → y.retiring = true)
  | [], s, h, _ => by
    refine ⟨h, rfl, rfl, rfl, rfl, rfl, rfl, fun _ he => he, fun e y hy => ⟨y, hy, rfl, id, id⟩, ?_⟩
    exact fun _ => ⟨rfl, fun e he => by cases he⟩
  | e :: rest, s, h, hsub => by
    have he : e ∈ s.entries := hsub (List.mem_cons_self ..)
    have hrest : rest ⊆ s.entries := fun j hj => hsub (List.mem_cons_of_mem _ hj)
    obtain ⟨x, hx, -, -⟩ := (h.cached e).1 he
    simp only [State.retireIdleConflict, hx]
    split_ifs with hskip hidle
    · -- an entry of another scope, or of the same identity
      obtain ⟨hinv, hcalls, hclosed, hdrains, hmax, hslots, hleases, hent, hheap, hnone⟩ :=
        retireIdleConflict_spec i rest s h hrest
      refine ⟨hinv, hcalls, hclosed, hdrains, hmax, hslots, hleases, hent, hheap, fun hr => ?_⟩
      refine ⟨(hnone hr).1, fun j hj y hy hscope hne => ?_⟩
      rcases List.mem_cons.1 hj with rfl | hj
      · obtain ⟨y₀, hy₀, hid, -⟩ := hheap j y hy
        rw [hx] at hy₀
        obtain rfl := Option.some.inj hy₀
        rw [hid] at hscope hne
        exact (hskip.elim (fun h => h hscope) hne).elim
      · exact (hnone hr).2 j hj y hy hscope hne
    · -- an idle conflict is detached, and the loop returns
      set x' : Entry := { x with retiring := true } with hx'
      have hput := h.putRetiring hx
      have hx₁ : (s.put e x').heap[e]? = some x' := by rw [get_put hx, if_pos rfl]
      have hidle' : x'.isIdle = true := hidle
      have hdetach := hput.detach hx₁ he hidle'
      have hopen : (x'.closing || x'.owned.isNone || decide (x'.users ≠ 0)) = false := by
        have hclosing : x'.closing = false := by
          obtain ⟨y, hy, hopen, -⟩ := (h.cached e).1 he
          rw [hx] at hy
          rw [← Option.some.inj hy] at hopen
          exact hopen
        have hused : x'.owned.isSome = true ∧ x'.users = 0 := by simpa [Entry.isIdle] using hidle'
        rw [hclosing, hused.2]
        simpa using hused.1
      have hstate : (s.put e x').detachLocked e x' =
          { (s.put e x').put e { x' with closing := true, cleanup := .pending } with
            entries := s.entries.erase e } := by
        rw [State.detachLocked, hopen]
        rfl
      refine ⟨hdetach, ?_, ?_, ?_, ?_, ?_, ?_, ?_, ?_, fun hr => by cases hr⟩
      · rw [hstate]; rfl
      · rw [hstate]; rfl
      · rw [hstate]; rfl
      · rw [hstate]; rfl
      · rw [hstate]; rfl
      · rw [hstate]; rfl
      · rw [hstate]
        exact fun j hj => List.mem_of_mem_erase hj
      · intro j y hy
        rw [hstate] at hy
        change ((s.put e x').put e _).heap[j]? = some y at hy
        rw [get_put hx₁] at hy
        split_ifs at hy with hj
        · obtain rfl := Option.some.inj hy
          exact ⟨x, hj ▸ hx, rfl, id, fun _ => rfl⟩
        · rw [get_put hx, if_neg hj] at hy
          exact ⟨y, hy, rfl, id, id⟩
    · -- a conflict in use is marked, and the loop goes on
      set x' : Entry := { x with retiring := true } with hx'
      have hput := h.putRetiring hx
      obtain ⟨hinv, hcalls, hclosed, hdrains, hmax, hslots, hleases, hent, hheap, hnone⟩ :=
        retireIdleConflict_spec i rest (s.put e x') hput hrest
      have hback : ∀ (j : ℕ) (y : Entry), (State.retireIdleConflict i (s.put e x') rest).1.heap[j]? =
          some y → ∃ y₀ : Entry, s.heap[j]? = some y₀ ∧ y.identity = y₀.identity ∧
          (y.isIdle = true → y₀.isIdle = true) ∧ (y₀.retiring = true → y.retiring = true) ∧
          (j = e → y.retiring = true) := by
        intro j y hy
        obtain ⟨y₁, hy₁, hid, hi, hr⟩ := hheap j y hy
        rw [get_put hx] at hy₁
        split_ifs at hy₁ with hj
        · obtain rfl := Option.some.inj hy₁
          exact ⟨x, hj ▸ hx, hid, hi, fun _ => hr rfl, fun _ => hr rfl⟩
        · exact ⟨y₁, hy₁, hid, hi, hr, fun heq => absurd heq hj⟩
      refine ⟨hinv, hcalls, hclosed, hdrains, hmax, hslots, hleases, hent, ?_, fun hr => ?_⟩
      · intro j y hy
        obtain ⟨y₀, hy₀, hid, hi, hret, -⟩ := hback j y hy
        exact ⟨y₀, hy₀, hid, hi, hret⟩
      · refine ⟨(hnone hr).1, fun j hj y hy hscope hne => ?_⟩
        rcases List.mem_cons.1 hj with rfl | hj
        · obtain ⟨_, -, -, -, -, hmark⟩ := hback j y hy
          exact hmark rfl
        · exact (hnone hr).2 j hj y hy hscope hne

lemma mem_of_oldest : ∀ {l : List ℕ}, s.oldest l = some e → e ∈ l
  | [], h => by cases h
  | e' :: rest, h => by
    simp only [State.oldest] at h
    split at h
    · exact Option.some.inj h ▸ List.mem_cons_self ..
    · rename_i e'' hrest
      split_ifs at h
      · exact Option.some.inj h ▸ List.mem_cons_self ..
      · exact List.mem_cons_of_mem _ (mem_of_oldest (Option.some.inj h ▸ hrest))

lemma mem_idleEntries (h : e ∈ s.idleEntries) (hx : s.heap[e]? = some x) :
    e ∈ s.entries ∧ x.isIdle = true := by
  obtain ⟨hmem, hidle⟩ := List.mem_filter.1 h
  simp only [hx, Option.any_some, Bool.and_eq_true] at hidle
  exact ⟨hmem, hidle.1⟩

lemma bind_entry {o : Option ℕ}
    (h : (o.bind fun e => (s.heap[e]?).map fun x => (e, x)) = some (e, x)) :
    o = some e ∧ s.heap[e]? = some x := by
  obtain ⟨e', ho, h'⟩ := Option.bind_eq_some_iff.1 h
  obtain ⟨x', hx', heq⟩ := Option.map_eq_some_iff.1 h'
  obtain ⟨rfl, rfl⟩ := Prod.mk.inj heq
  exact ⟨ho, hx'⟩

variable {c : Call}

lemma Inv.moveFree (h : Inv s) {phase : Phase} (hc : s.calls[k]? = some c)
    (hnone : c.phase.reserved = none) (hphase : phase.reserved = none) :
    Inv (s.moveCall k c phase) := by
  refine h.moveCall hc (hphase.trans hnone.symm) fun e x client hres => ?_
  rw [hnone] at hres
  cases hres

lemma Inv.seek (h : Inv s) (hc : s.calls[k]? = some c)
    (hphase : c.phase.reserved = none) : Inv (s.seek k c) := by
  unfold State.seek
  by_cases hclosed : s.closed = true
  · rw [if_pos hclosed]
    exact h.moveFree hc hphase rfl
  rw [if_neg hclosed]
  cases hlookup : s.lookup c.identity with
  | some e =>
    obtain ⟨hmem, x, hx, hid⟩ := lookup_some hlookup
    obtain ⟨y, hy, hopen, hlive⟩ := (h.cached e).1 hmem
    rw [hx] at hy
    obtain rfl := Option.some.inj hy
    simp only [hx]
    split_ifs with hwait
    · exact h.moveFree hc hphase rfl
    · have hsome : x.owned.isSome = true := by
        cases ho : x.owned <;> simp [ho] at hwait ⊢
      have hentry := h.entry e x hx
      obtain ⟨client, hclient⟩ := Option.isSome_iff_exists.1 hsome
      refine h.grant hx hc hid rfl rfl hopen hlive rfl rfl rfl rfl
        ⟨client, hclient, hentry.client client hclient⟩ ?_ (.inl ⟨hphase, hsome⟩)
      rw [← hentry.users hsome]
  | none =>
    dsimp only
    by_cases hsuper : s.isSuperseded c.identity = true
    · rw [if_pos hsuper]
      exact h.moveFree hc hphase rfl
    rw [if_neg hsuper]
    have hspec := retireIdleConflict_spec c.identity s.entries s h (fun _ he => he)
    split
    · rename_i s₁ e heq
      rw [heq] at hspec
      exact hspec.1.moveFree (hspec.2.1 ▸ hc) hphase rfl
    · rename_i s₁ heq
      rw [heq] at hspec
      dsimp only at hspec
      obtain ⟨hinv, hcalls, hcl, -, hmax, hslots, -, -, hheap, hnone⟩ := hspec
      have hc₁ : s₁.calls[k]? = some c := hcalls ▸ hc
      split_ifs with hfull
      · split
        · rename_i e x hbind
          obtain ⟨hold, hx⟩ := bind_entry hbind
          obtain ⟨hmem, hidle⟩ := mem_idleEntries (mem_of_oldest hold) hx
          rw [detachLocked_moveCall]
          exact (hinv.moveFree hc₁ hphase rfl).detach hx hmem hidle
        · exact hinv.moveFree hc₁ hphase rfl
      · refine hinv.reserve hc₁ hphase ?_ (by omega) ?_
        · simpa [hcl] using hclosed
        · intro e y he hy hscope
          obtain ⟨hent, hret⟩ := hnone rfl
          have he' : e ∈ s.entries := hent ▸ he
          obtain ⟨y₀, hy₀, hid, -⟩ := hheap e y hy
          have hne : y.identity ≠ c.identity := hid ▸ lookup_none hlookup he' hy₀
          refine ⟨?_, hret e he' y hy hscope hne⟩
          -- a scope that has this version or a higher one supersedes the call
          by_contra hle
          apply hsuper
          unfold State.isSuperseded
          refine List.any_eq_true.2 ⟨e, he', ?_⟩
          rw [hy₀, Option.any_some, Bool.and_eq_true, decide_eq_true_iff, decide_eq_true_iff, ← hid]
          exact ⟨hscope, Nat.le_of_not_lt hle⟩

lemma Inv.discard (h : Inv s) {client : Client}
    (hx : s.heap[e]? = some x) (hc : s.calls[k]? = some c) (hres : c.phase.reserved = some e)
    (hclient : c.phase.client = some client) :
    Inv ((((s.put e { x with owned := some client, users := 0 }).detachLocked e
      { x with owned := some client, users := 0 }).moveCall k c .failed).notifyAll) := by
  obtain ⟨y, hy, hnone, hlive, hid, hmade⟩ := h.calls k c e hc hres
  rw [hx] at hy
  obtain rfl := Option.some.inj hy
  have hopen := ((h.entry e x hx).creating hnone).2.1
  have hmem : e ∈ s.entries := (h.cached e).2 ⟨x, hx, hopen, hlive⟩
  rw [detachLocked_moveCall]
  refine Inv.notifyAll (Inv.detach (h.settle hx hc hres (hmade client hclient)) ?_ hmem rfl)
  change (s.heap.set e _)[e]? = _
  rw [getElem?_set_of_some hx, if_pos rfl]

lemma Inv.install (h : Inv s) {client : Client}
    (hx : s.heap[e]? = some x) (hc : s.calls[k]? = some c) (hphase : c.phase = .created e client) :
    Inv (s.install k e c client x) := by
  have hres : c.phase.reserved = some e := by rw [hphase]; rfl
  obtain ⟨y, hy, hnone, hlive, hid, hmade⟩ := h.calls k c e hc hres
  rw [hx] at hy
  obtain rfl := Option.some.inj hy
  have hclient : c.phase.client = some client := by rw [hphase]; rfl
  obtain ⟨husers, hopen, hout⟩ := (h.entry e x hx).creating hnone
  unfold State.install
  split_ifs with hretire
  · exact h.discard hx hc hres hclient
  · refine Inv.notifyAll (h.grant hx hc hid rfl rfl hopen hlive rfl rfl rfl rfl
      ⟨client, rfl, hmade client hclient⟩ ?_ (.inr hres))
    rw [hout]
    exact husers

lemma Inv.abandonReserved (h : Inv s) {client : Option Client}
    (hx : s.heap[e]? = some x) (hc : s.calls[k]? = some c)
    (hphase : c.phase = .abandoning e client) : Inv (s.abandonReserved k e c client x) := by
  have hres : c.phase.reserved = some e := by rw [hphase]; rfl
  cases client with
  | none => exact (h.abandon hx hc hres).notifyAll
  | some client => exact h.discard hx hc hres (by rw [hphase]; rfl)

lemma Inv.releaseLocked (h : Inv s) {j : ℕ} {l : Lease} (hl : s.leases[j]? = some l)
    (hx : s.heap[l.entry]? = some x) (hstage : l.stage = .releasing) :
    Inv (s.releaseLocked j l x) := by
  obtain ⟨hpos, hinv⟩ := h.release (q := s.sequence + 1) hl hx hstage
  obtain ⟨y, hy, hsome, -⟩ := h.leases l (List.mem_of_getElem? hl)
  rw [hx] at hy
  obtain rfl := Option.some.inj hy
  have hentry := h.entry l.entry x hx
  unfold State.releaseLocked
  rw [if_neg (by omega)]
  dsimp only
  split_ifs with hlast
  · refine (hinv.detach ?_ ?_ ?_).notifyAll
    · change (s.heap.set l.entry _)[l.entry]? = _
      rw [getElem?_set_of_some hx, if_pos rfl]
    · -- an entry with a user is in the dictionary
      refine (h.cached l.entry).2 ⟨x, hx, ?_, ?_⟩
      · by_contra hne
        have hzero := (hentry.closing (by simpa using hne)).2
        omega
      · by_contra hne
        rcases hentry.gone (by simpa using hne) with hnone | hclosed
        · rw [hnone] at hsome
          cases hsome
        · have hzero := (hentry.closing (hentry.cleanup.2 (by simp [hclosed]))).2
          omega
    · simp only [Entry.isIdle, Bool.and_eq_true, decide_eq_true_iff]
      exact ⟨hsome, hlast.1⟩
  · exact hinv.notifyAll

lemma Inv.retire (h : Inv s) (i : Identity) : Inv (s.retire i) := by
  unfold State.retire
  split
  · exact h
  · rename_i e x hbind
    obtain ⟨hlookup, hx⟩ := bind_entry hbind
    have hmem := (lookup_some hlookup).1
    have hput := h.putRetiring hx
    dsimp only
    split_ifs with hidle
    · have hidle' : ({ x with retiring := true } : Entry).isIdle = true := hidle
      refine (hput.detach ?_ hmem hidle').notifyAll
      rw [get_put hx, if_pos rfl]
    · exact hput.notifyAll

lemma Inv.beginDrain (h : Inv s) : Inv s.beginDrain := by
  have hget : ∀ (j : ℕ) (y : Entry),
      (s.heap.mapIdx fun e x => if e ∈ s.entries then { x with retiring := true } else x)[j]? =
        some y → ∃ y₀ : Entry, s.heap[j]? = some y₀ ∧
          (y = y₀ ∨ y = { y₀ with retiring := true }) := by
    intro j y hy
    rw [List.getElem?_mapIdx] at hy
    obtain ⟨y₀, hy₀, rfl⟩ := Option.map_eq_some_iff.1 hy
    refine ⟨y₀, hy₀, ?_⟩
    split_ifs
    · exact .inr rfl
    · exact .inl rfl
  have hfwd : ∀ (j : ℕ) (y₀ : Entry), s.heap[j]? = some y₀ → ∃ y : Entry,
      (s.heap.mapIdx fun e x => if e ∈ s.entries then { x with retiring := true } else x)[j]? =
        some y ∧ (y = y₀ ∨ y = { y₀ with retiring := true }) := by
    intro j y₀ hy₀
    rw [List.getElem?_mapIdx, hy₀]
    refine ⟨_, rfl, ?_⟩
    split_ifs
    · exact .inr rfl
    · exact .inl rfl
  have hentry : ∀ (j : ℕ) (y₀ y : Entry), EntryInv s j y₀ →
      (y = y₀ ∨ y = { y₀ with retiring := true }) → EntryInv s j y := by
    rintro j y₀ y hinv (rfl | rfl)
    · exact hinv
    · exact ⟨hinv.creating, hinv.reserved, hinv.client, hinv.users, hinv.closing, hinv.cleanup,
        hinv.closes, hinv.gone⟩
  unfold State.beginDrain
  refine Inv.notifyAll ?_
  refine ⟨?_, h.bound, h.nodup, ?_, ?_, ?_, ?_, h.reserved, ?_, h.fault, ?_⟩
  · -- slots do not depend on the flag
    have hcount : ∀ (l : List Entry) (f : ℕ → Entry → Entry), (∀ e x, (f e x).gone = x.gone) →
        (l.mapIdx f).countP (fun x => !x.gone) = l.countP fun x => !x.gone := by
      intro l
      induction l with
      | nil => intro f _; rfl
      | cons x l ih =>
        intro f hf
        rw [List.mapIdx_cons, List.countP_cons, List.countP_cons, hf,
          ih (fun e x => f (e + 1) x) fun e x => hf (e + 1) x]
    dsimp only
    rw [h.slots, hcount]
    intro e x
    split_ifs <;> rfl
  · intro j
    dsimp only
    rw [h.cached]
    constructor
    · rintro ⟨y₀, hy₀, hc, hg⟩
      obtain ⟨y, hy, rfl | rfl⟩ := hfwd j y₀ hy₀
      · exact ⟨_, hy, hc, hg⟩
      · exact ⟨_, hy, hc, hg⟩
    · rintro ⟨y, hy, hc, hg⟩
      obtain ⟨y₀, hy₀, rfl | rfl⟩ := hget j y hy
      · exact ⟨_, hy₀, hc, hg⟩
      · exact ⟨_, hy₀, hc, hg⟩
  · intro e₁ e₂ y₁ y₂ h₁ h₂ hy₁ hy₂ hscope hlt
    obtain ⟨z₁, hz₁, hcase₁⟩ := hget e₁ y₁ hy₁
    obtain ⟨z₂, hz₂, hcase₂⟩ := hget e₂ y₂ hy₂
    have hid₁ : y₁.identity = z₁.identity := by rcases hcase₁ with rfl | rfl <;> rfl
    have hid₂ : y₂.identity = z₂.identity := by rcases hcase₂ with rfl | rfl <;> rfl
    rw [hid₁, hid₂] at hscope ⊢
    obtain ⟨hver, hret⟩ := h.versions e₁ e₂ z₁ z₂ h₁ h₂ hz₁ hz₂ hscope hlt
    refine ⟨hver, ?_⟩
    rcases hcase₁ with rfl | rfl
    · exact hret
    · rfl
  · intro j y hy
    obtain ⟨y₀, hy₀, hcase⟩ := hget j y hy
    exact (hentry j y₀ y (h.entry j y₀ hy₀) hcase).congr rfl id
  · intro k c e hk hres
    obtain ⟨y₀, hy₀, ho, hg, hid, hcl⟩ := h.calls k c e hk hres
    obtain ⟨y, hy, rfl | rfl⟩ := hfwd e y₀ hy₀
    · exact ⟨_, hy, ho, hg, hid, hcl⟩
    · exact ⟨_, hy, ho, hg, hid, hcl⟩
  · intro l hl
    obtain ⟨y₀, hy₀, ho, hid⟩ := h.leases l hl
    obtain ⟨y, hy, rfl | rfl⟩ := hfwd l.entry y₀ hy₀
    · exact ⟨_, hy, ho, hid⟩
    · exact ⟨_, hy, ho, hid⟩
  · intro hmem
    rcases List.mem_append.1 hmem with hmem | hmem
    · exact ⟨rfl, (h.returned hmem).2⟩
    · cases List.mem_singleton.1 hmem

lemma Inv.drain (h : Inv s) {d : ℕ} (hclosed : s.closed = true) : Inv (s.drain d) := by
  unfold State.drain
  split_ifs with hzero
  · exact h.moveDrain fun _ => ⟨hclosed, hzero⟩
  · split
    · rename_i e x hbind
      obtain ⟨hhead, hx⟩ := bind_entry hbind
      obtain ⟨hmem, hidle⟩ := mem_idleEntries (List.mem_of_mem_head? hhead) hx
      exact (h.detach hx hmem hidle).moveDrain fun heq => by cases heq
    · exact h.moveDrain fun heq => by cases heq

lemma Inv.cleanupStep (h : Inv s) (hx : s.heap[e]? = some x)
    (hstep : s.cleanupStep e x = some s') : Inv s' := by
  have hcloses := (h.entry e x hx).closes
  unfold State.cleanupStep at hstep
  split at hstep
  · rename_i hpending
    rw [← Option.some.inj hstep]
    rw [hpending] at hcloses
    exact h.cleanupTask hx (by simp [hpending]) (by simp) (by simp [hcloses]) (by simp [hpending])
  · rename_i hclosing
    rw [← Option.some.inj hstep]
    rw [hclosing] at hcloses
    exact h.cleanupTask hx (by simp [hclosing]) (by simp) (by simp [hcloses]) (by simp)
  · rename_i hclosed
    split_ifs at hstep with hgone
    rw [← Option.some.inj hstep]
    exact (h.releaseSlot hx hclosed (by simpa using hgone)).notifyAll
  · cases hstep

/-! ## What the sections leave alone -/

lemma detachLocked_frame (s : State) (e : ℕ) (x : Entry) :
    (s.detachLocked e x).maxEntries = s.maxEntries ∧ (s.detachLocked e x).leases = s.leases ∧
      (s.detachLocked e x).closed = s.closed ∧ (s.detachLocked e x).drains = s.drains := by
  unfold State.detachLocked
  split_ifs <;> exact ⟨rfl, rfl, rfl, rfl⟩

/-- A lease that a step hands out is on an entry of the dictionary that is not retiring, for the
identity that was asked for. -/
def Grants (s s' : State) : Prop :=
  ∃ (e : ℕ) (x : Entry), e ∈ s.entries ∧ s.heap[e]? = some x ∧ x.retiring = false ∧
    s'.leases = s.leases ++ [⟨e, x.identity, .held⟩]

lemma Inv.seek_frame (h : Inv s) :
    (s.seek k c).maxEntries = s.maxEntries ∧ (s.seek k c).drains = s.drains ∧
      ((s.seek k c).leases = s.leases ∨ Grants s (s.seek k c)) := by
  unfold State.seek
  by_cases hclosed : s.closed = true
  · rw [if_pos hclosed]
    exact ⟨rfl, rfl, .inl rfl⟩
  rw [if_neg hclosed]
  cases hlookup : s.lookup c.identity with
  | some e =>
    obtain ⟨hmem, x, hx, hid⟩ := lookup_some hlookup
    simp only [hx]
    split_ifs with hwait
    · exact ⟨rfl, rfl, .inl rfl⟩
    · rw [Bool.or_eq_true, not_or] at hwait
      refine ⟨rfl, rfl, .inr ⟨e, x, hmem, hx, by simpa using hwait.1, ?_⟩⟩
      rw [hid]
      rfl
  | none =>
    dsimp only
    by_cases hsuper : s.isSuperseded c.identity = true
    · rw [if_pos hsuper]
      exact ⟨rfl, rfl, .inl rfl⟩
    rw [if_neg hsuper]
    have hspec := retireIdleConflict_spec c.identity s.entries s h (fun _ he => he)
    split
    · rename_i s₁ e heq
      rw [heq] at hspec
      exact ⟨hspec.2.2.2.2.1, hspec.2.2.2.1, .inl hspec.2.2.2.2.2.2.1⟩
    · rename_i s₁ heq
      rw [heq] at hspec
      obtain ⟨-, -, -, hdrains, hmax, -, hleases, -⟩ := hspec
      split_ifs with hfull
      · split
        · rename_i e x hbind
          have hframe := detachLocked_frame s₁ e x
          exact ⟨hframe.1.trans hmax, hframe.2.2.2.trans hdrains, .inl (hframe.2.1.trans hleases)⟩
        · exact ⟨hmax, hdrains, .inl hleases⟩
      · exact ⟨hmax, hdrains, .inl hleases⟩

lemma Inv.step_frame (h : Inv s) {act : Act} (hstep : s.step act = some s') :
    s'.maxEntries = s.maxEntries ∧
      (s'.leases.length = s.leases.length ∨ Grants s s') := by
  have hdiscard : ∀ (k e : ℕ) (c : Call) (x : Entry),
      ((((s.put e x).detachLocked e x).moveCall k c .failed).notifyAll).maxEntries =
        s.maxEntries ∧
      ((((s.put e x).detachLocked e x).moveCall k c .failed).notifyAll).leases = s.leases := by
    intro k e c x
    have hframe := detachLocked_frame (s.put e x) e x
    exact ⟨hframe.1, hframe.2.1⟩
  cases act with
  | acquire i apiKey =>
    rw [← Option.some.inj hstep]
    exact ⟨rfl, .inl rfl⟩
  | seek k =>
    obtain ⟨c, hc, hcall⟩ := Option.bind_eq_some_iff.1 hstep
    simp only [State.stepCall] at hcall
    split at hcall
    · rw [← Option.some.inj hcall]
      exact ⟨h.seek_frame.1, h.seek_frame.2.2.imp (congrArg List.length) id⟩
    · split_ifs at hcall
      rw [← Option.some.inj hcall]
      exact ⟨rfl, .inl rfl⟩
    · cases hcall
  | factory k ok =>
    obtain ⟨c, hc, hcall⟩ := Option.bind_eq_some_iff.1 hstep
    simp only [State.stepCall] at hcall
    split at hcall
    · obtain ⟨x, -, rfl⟩ := Option.map_eq_some_iff.1 hcall
      exact ⟨rfl, .inl rfl⟩
    · cases hcall
  | install k =>
    obtain ⟨c, hc, hcall⟩ := Option.bind_eq_some_iff.1 hstep
    simp only [State.stepCall] at hcall
    split at hcall
    · rename_i e client hphase
      obtain ⟨x, hx, rfl⟩ := Option.map_eq_some_iff.1 hcall
      have hres : c.phase.reserved = some e := by rw [hphase]; rfl
      obtain ⟨y, hy, hnone, hlive, hid, -⟩ := h.calls k c e hc hres
      rw [hx] at hy
      obtain rfl := Option.some.inj hy
      have hopen := ((h.entry e x hx).creating hnone).2.1
      unfold State.install
      split_ifs with hretire
      · exact ⟨(hdiscard k e c _).1, .inl (congrArg List.length (hdiscard k e c _).2)⟩
      · rw [Bool.or_eq_true, not_or] at hretire
        refine ⟨rfl, .inr ⟨e, x, (h.cached e).2 ⟨x, hx, hopen, hlive⟩, hx, ?_, ?_⟩⟩
        · simpa using hretire.2
        · rw [hid]
          rfl
    · cases hcall
  | abandon k =>
    obtain ⟨c, hc, hcall⟩ := Option.bind_eq_some_iff.1 hstep
    simp only [State.stepCall] at hcall
    split at hcall
    · rename_i e client hphase
      obtain ⟨x, hx, rfl⟩ := Option.map_eq_some_iff.1 hcall
      cases client with
      | none => exact ⟨rfl, .inl rfl⟩
      | some client =>
        exact ⟨(hdiscard k e c _).1, .inl (congrArg List.length (hdiscard k e c _).2)⟩
    · cases hcall
  | cancel k =>
    obtain ⟨c, hc, hcall⟩ := Option.bind_eq_some_iff.1 hstep
    simp only [State.stepCall, State.cancelCall] at hcall
    split at hcall <;>
      first | (rw [← Option.some.inj hcall]; exact ⟨rfl, .inl rfl⟩) | cases hcall
  | release j =>
    obtain ⟨l, hl, hlease⟩ := Option.bind_eq_some_iff.1 hstep
    simp only [State.stepLease] at hlease
    split_ifs at hlease
    rw [← Option.some.inj hlease]
    exact ⟨rfl, .inl (List.length_set ..)⟩
  | releaseLocked j =>
    obtain ⟨l, hl, hlease⟩ := Option.bind_eq_some_iff.1 hstep
    simp only [State.stepLease] at hlease
    split_ifs at hlease
    obtain ⟨x, hx, rfl⟩ := Option.map_eq_some_iff.1 hlease
    unfold State.releaseLocked
    dsimp only
    split_ifs with hunder hlast
    · exact ⟨rfl, .inl rfl⟩
    · refine ⟨(detachLocked_frame _ _ _).1, .inl ?_⟩
      exact (congrArg List.length (detachLocked_frame _ _ _).2.1).trans (List.length_set ..)
    · exact ⟨rfl, .inl (List.length_set ..)⟩
  | retire i =>
    rw [← Option.some.inj hstep]
    unfold State.retire
    split
    · exact ⟨rfl, .inl rfl⟩
    · rename_i e x hbind
      dsimp only
      split_ifs
      · refine ⟨(detachLocked_frame _ _ _).1, .inl ?_⟩
        exact congrArg List.length (detachLocked_frame _ _ _).2.1
      · exact ⟨rfl, .inl rfl⟩
  | cleanup e =>
    obtain ⟨x, hx, htask⟩ := Option.bind_eq_some_iff.1 hstep
    unfold State.cleanupStep at htask
    split at htask
    · rw [← Option.some.inj htask]
      exact ⟨rfl, .inl rfl⟩
    · rw [← Option.some.inj htask]
      exact ⟨rfl, .inl rfl⟩
    · split_ifs at htask
      rw [← Option.some.inj htask]
      exact ⟨rfl, .inl rfl⟩
    · cases htask
  | aclose =>
    rw [← Option.some.inj hstep]
    exact ⟨rfl, .inl rfl⟩
  | drain d =>
    obtain ⟨phase, hd, hdrain⟩ := Option.bind_eq_some_iff.1 hstep
    simp only [State.stepDrain] at hdrain
    split at hdrain
    · rw [← Option.some.inj hdrain]
      unfold State.drain
      split_ifs
      · exact ⟨rfl, .inl rfl⟩
      · split
        · rename_i e x hbind
          have hframe := detachLocked_frame s e x
          exact ⟨hframe.1, .inl (congrArg List.length hframe.2.1)⟩
        · exact ⟨rfl, .inl rfl⟩
    · split_ifs at hdrain
      rw [← Option.some.inj hdrain]
      exact ⟨rfl, .inl rfl⟩
    · cases hdrain
  | cancelDrain d =>
    obtain ⟨phase, hd, hdrain⟩ := Option.bind_eq_some_iff.1 hstep
    simp only [State.stepDrain] at hdrain
    split at hdrain <;>
      first | (rw [← Option.some.inj hdrain]; exact ⟨rfl, .inl rfl⟩) | cases hdrain

/-! ## Waiting -/

/-- Calls of `aclose` follow its first section, and wait only while no entry of the dictionary is
idle and some slot is occupied. -/
structure Waits (s : State) : Prop where
  closed : s.drains ≠ [] → s.closed = true
  waiting : .waiting ∈ s.drains → s.occupiedSlots ≠ 0 ∧
    ∀ (e : ℕ) (x : Entry), e ∈ s.entries → s.heap[e]? = some x → x.isIdle = false

lemma Waits.notifyAll (hclosed : s.drains ≠ [] → s.closed = true) : Waits s.notifyAll where
  closed hne := hclosed fun hnil => hne (by rw [State.notifyAll, hnil]; rfl)
  waiting hmem := by
    obtain ⟨d, -, heq⟩ := List.mem_map.1 hmem
    split_ifs at heq with hwait
    exact absurd heq hwait

lemma Waits.congr (h : Waits s) (hdrains : s'.drains = s.drains) (hclosed : s'.closed = s.closed)
    (hslots : s'.occupiedSlots = s.occupiedSlots)
    (hidle : s.closed = true → ∀ (e : ℕ) (x : Entry), e ∈ s'.entries → s'.heap[e]? = some x →
      x.isIdle = true → ∃ y : Entry, e ∈ s.entries ∧ s.heap[e]? = some y ∧ y.isIdle = true) :
    Waits s' where
  closed := by
    rw [hdrains, hclosed]
    exact h.closed
  waiting hmem := by
    rw [hdrains] at hmem
    have hcl : s.closed = true := h.closed (List.ne_nil_of_mem hmem)
    obtain ⟨hpos, hnone⟩ := h.waiting hmem
    refine ⟨hslots ▸ hpos, fun e x he hx => ?_⟩
    by_contra hne
    obtain ⟨y, he', hy, hy'⟩ := hidle hcl e x he hx (by simpa using hne)
    rw [hnone e y he' hy] at hy'
    cases hy'

lemma Waits.moveCall (h : Waits s) (k : ℕ) (c : Call) (phase : Phase) :
    Waits (s.moveCall k c phase) :=
  h.congr rfl rfl rfl fun _ _ x he hx hi => ⟨x, he, hx, hi⟩

lemma Waits.moveDrain (h : Waits s) {d : ℕ} {phase next : Drain} (hd : s.drains[d]? = some phase)
    (hnext : next = .waiting → s.occupiedSlots ≠ 0 ∧
      ∀ (e : ℕ) (x : Entry), e ∈ s.entries → s.heap[e]? = some x → x.isIdle = false) :
    Waits (s.moveDrain d next) where
  closed _ := h.closed (List.ne_nil_of_mem (List.mem_of_getElem? hd))
  waiting hmem := (List.mem_or_eq_of_mem_set hmem).elim h.waiting fun heq => hnext heq.symm

lemma Waits.detach (h : Waits s) (hx : s.heap[e]? = some x) :
    Waits (s.detachLocked e x) := by
  unfold State.detachLocked
  split_ifs
  · exact h.congr rfl rfl rfl fun _ _ y he hy hi => ⟨y, he, hy, hi⟩
  · refine h.congr rfl rfl rfl fun _ j y hj hy hi => ?_
    change (s.put e _).heap[j]? = some y at hy
    rw [get_put hx] at hy
    split_ifs at hy with hje
    · refine ⟨x, List.mem_of_mem_erase hj, hje ▸ hx, ?_⟩
      rw [← Option.some.inj hy] at hi
      exact hi
    · exact ⟨y, List.mem_of_mem_erase hj, hy, hi⟩

lemma Inv.not_idle_of_none (h : Inv s)
    (hnone : (s.idleEntries.head?.bind fun e => (s.heap[e]?).map fun x => (e, x)) = none) (he : e ∈ s.entries) (hx : s.heap[e]? = some x) : x.isIdle = false := by
  by_contra hne
  obtain ⟨y, hy, hopen, -⟩ := (h.cached e).1 he
  rw [hx] at hy
  obtain rfl := Option.some.inj hy
  have hmem : e ∈ s.idleEntries := by
    refine List.mem_filter.2 ⟨he, ?_⟩
    rw [hx, Option.any_some, hopen]
    simpa using hne
  cases hl : s.idleEntries with
  | nil =>
    rw [hl] at hmem
    cases hmem
  | cons e₀ rest =>
    have he₀ : e₀ ∈ s.entries :=
      (List.mem_filter.1 (show e₀ ∈ s.idleEntries by rw [hl]; exact List.mem_cons_self ..)).1
    obtain ⟨y₀, hy₀, -⟩ := (h.cached e₀).1 he₀
    rw [hl] at hnone
    simp [hy₀] at hnone

lemma inv_step (h : Inv s) (hw : Waits s) {act : Act} (hstep : s.step act = some s') :
    Inv s' ∧ Waits s' := by
  have hdetach : ∀ (s : State) (e : ℕ) (x : Entry), (s.drains ≠ [] → s.closed = true) →
      (s.detachLocked e x).drains ≠ [] → (s.detachLocked e x).closed = true := by
    intro s e x hcl
    obtain ⟨-, -, hclosed, hdrains⟩ := detachLocked_frame s e x
    rw [hclosed, hdrains]
    exact hcl
  have hkeep : ∀ {d : ℕ} {phase next : Drain}, s.drains[d]? = some phase → next ≠ .returned →
      next ≠ .waiting → Inv (s.moveDrain d next) ∧ Waits (s.moveDrain d next) := by
    intro d phase next hd hreturned hwaiting
    exact ⟨h.moveDrain fun heq => absurd heq hreturned,
      hw.moveDrain hd fun heq => absurd heq hwaiting⟩
  cases act with
  | acquire i apiKey =>
    rw [← Option.some.inj hstep]
    refine ⟨?_, hw.congr rfl rfl rfl fun _ _ x he hx hi => ⟨x, he, hx, hi⟩⟩
    -- the new call creates nothing
    have hnew : (⟨i, if validateApiKey i apiKey then .seeking else .failed⟩ : Call).phase.reserved =
        none := by
      dsimp only
      split_ifs <;> rfl
    have hget : ∀ (j : ℕ) (c : Call) (e : ℕ), (s.calls ++
        [⟨i, if validateApiKey i apiKey then .seeking else .failed⟩])[j]? = some c →
        c.phase.reserved = some e → s.calls[j]? = some c := by
      intro j c e hj hres
      rcases Nat.lt_or_ge j s.calls.length with hlt | hge
      · rwa [List.getElem?_append_left hlt] at hj
      · rw [List.getElem?_append_right hge] at hj
        have hc := List.mem_singleton.1 (List.mem_of_getElem? hj)
        rw [hc, hnew] at hres
        cases hres
    exact { h with
      entry := fun e x hx => (h.entry e x hx).congr rfl (by
        rintro ⟨j, c, hj, hres⟩
        refine ⟨j, c, ?_, hres⟩
        change (s.calls ++ _)[j]? = some c
        rw [List.getElem?_append_left (List.getElem?_eq_some_iff.1 hj).1]
        exact hj)
      calls := fun j c e hj hres => h.calls j c e (hget j c e hj hres) hres
      reserved := fun j j' c c' e hj hj' hres hres' =>
        h.reserved j j' c c' e (hget j c e hj hres) (hget j' c' e hj' hres') hres hres' }
  | seek k =>
    obtain ⟨c, hc, hcall⟩ := Option.bind_eq_some_iff.1 hstep
    simp only [State.stepCall] at hcall
    split at hcall
    · rename_i hphase
      rw [← Option.some.inj hcall]
      refine ⟨h.seek hc (by rw [hphase]; rfl), ?_⟩
      by_cases hclosed : s.closed = true
      · rw [State.seek, if_pos hclosed]
        exact hw.moveCall k c .failed
      · -- no call of `aclose` has begun
        have hnil : (s.seek k c).drains = [] := by
          rw [h.seek_frame.2.1]
          by_contra hne
          exact hclosed (hw.closed hne)
        refine ⟨fun hne => absurd hnil hne, fun hmem => ?_⟩
        rw [hnil] at hmem
        cases hmem
    · rename_i e hphase
      split_ifs at hcall
      rw [← Option.some.inj hcall]
      exact ⟨h.moveFree hc (by rw [hphase]; rfl) rfl, hw.moveCall k c .seeking⟩
    · cases hcall
  | factory k ok =>
    obtain ⟨c, hc, hcall⟩ := Option.bind_eq_some_iff.1 hstep
    simp only [State.stepCall] at hcall
    split at hcall
    · rename_i e hphase
      obtain ⟨x, hx, rfl⟩ := Option.map_eq_some_iff.1 hcall
      refine ⟨h.moveCall hc ?_ ?_, hw.moveCall k c _⟩
      · rw [hphase]
        cases ok <;> rfl
      · intro e' x' client hres hx' hclient
        rw [hphase] at hres
        rw [← Option.some.inj hres, hx] at hx'
        rw [← Option.some.inj hx']
        cases ok with
        | true => rw [← Option.some.inj hclient]
        | false => cases hclient
    · cases hcall
  | install k =>
    obtain ⟨c, hc, hcall⟩ := Option.bind_eq_some_iff.1 hstep
    simp only [State.stepCall] at hcall
    split at hcall
    · rename_i e client hphase
      obtain ⟨x, hx, rfl⟩ := Option.map_eq_some_iff.1 hcall
      refine ⟨h.install hx hc hphase, ?_⟩
      unfold State.install
      split_ifs
      · exact Waits.notifyAll (hdetach _ _ _ hw.closed)
      · exact Waits.notifyAll hw.closed
    · cases hcall
  | abandon k =>
    obtain ⟨c, hc, hcall⟩ := Option.bind_eq_some_iff.1 hstep
    simp only [State.stepCall] at hcall
    split at hcall
    · rename_i e client hphase
      obtain ⟨x, hx, rfl⟩ := Option.map_eq_some_iff.1 hcall
      refine ⟨h.abandonReserved hx hc hphase, ?_⟩
      cases client with
      | none => exact Waits.notifyAll hw.closed
      | some client => exact Waits.notifyAll (hdetach _ _ _ hw.closed)
    · cases hcall
  | cancel k =>
    obtain ⟨c, hc, hcall⟩ := Option.bind_eq_some_iff.1 hstep
    simp only [State.stepCall, State.cancelCall] at hcall
    split at hcall
    · rename_i hphase
      rw [← Option.some.inj hcall]
      exact ⟨h.moveFree hc (by rw [hphase]; rfl) rfl, hw.moveCall k c _⟩
    · rename_i hphase
      rw [← Option.some.inj hcall]
      exact ⟨h.moveFree hc (by rw [hphase]; rfl) rfl, hw.moveCall k c _⟩
    · rename_i e hphase
      rw [← Option.some.inj hcall]
      exact ⟨h.moveFree hc (by rw [hphase]; rfl) rfl, hw.moveCall k c _⟩
    · rename_i e hphase
      rw [← Option.some.inj hcall]
      refine ⟨h.moveCall hc (by rw [hphase]; rfl) fun e' x client _ _ hclient => ?_, hw.moveCall k c _⟩
      cases hclient
    · rename_i e client hphase
      rw [← Option.some.inj hcall]
      have hres : c.phase.reserved = some e := by rw [hphase]; rfl
      refine ⟨h.moveCall hc (by rw [hphase]; rfl) fun e' x client' hres' hx hclient => ?_,
        hw.moveCall k c _⟩
      obtain ⟨y, hy, -, -, -, hmade⟩ := h.calls k c e' hc hres'
      rw [hx] at hy
      rw [Option.some.inj hy]
      exact hmade client' (by rw [hphase]; exact hclient)
    · cases hcall
  | release j =>
    obtain ⟨l, hl, hlease⟩ := Option.bind_eq_some_iff.1 hstep
    simp only [State.stepLease] at hlease
    split_ifs at hlease with hheld
    rw [← Option.some.inj hlease]
    exact ⟨h.releasing hl hheld, hw.congr rfl rfl rfl fun _ _ x he hx hi => ⟨x, he, hx, hi⟩⟩
  | releaseLocked j =>
    obtain ⟨l, hl, hlease⟩ := Option.bind_eq_some_iff.1 hstep
    simp only [State.stepLease] at hlease
    split_ifs at hlease with hstage
    obtain ⟨x, hx, rfl⟩ := Option.map_eq_some_iff.1 hlease
    refine ⟨h.releaseLocked hl hx hstage, ?_⟩
    unfold State.releaseLocked
    dsimp only
    split_ifs with hunder hlast
    · exact hw.congr rfl rfl rfl fun _ _ x he hx hi => ⟨x, he, hx, hi⟩
    · exact Waits.notifyAll (hdetach _ _ _ hw.closed)
    · exact Waits.notifyAll hw.closed
  | retire i =>
    rw [← Option.some.inj hstep]
    refine ⟨h.retire i, ?_⟩
    unfold State.retire
    split
    · exact hw
    · dsimp only
      split_ifs
      · exact Waits.notifyAll (hdetach _ _ _ hw.closed)
      · exact Waits.notifyAll hw.closed
  | cleanup e =>
    obtain ⟨x, hx, htask⟩ := Option.bind_eq_some_iff.1 hstep
    refine ⟨h.cleanupStep hx htask, ?_⟩
    have hput : ∀ x' : Entry, x'.isIdle = x.isIdle → Waits (s.put e x') := by
      intro x' hi
      refine hw.congr rfl rfl rfl fun _ j y hj hy hyi => ?_
      rw [get_put hx] at hy
      split_ifs at hy with hje
      · refine ⟨x, hj, hje ▸ hx, ?_⟩
        rw [← hi, Option.some.inj hy]
        exact hyi
      · exact ⟨y, hj, hy, hyi⟩
    unfold State.cleanupStep at htask
    split at htask
    · rw [← Option.some.inj htask]
      exact hput _ rfl
    · rw [← Option.some.inj htask]
      exact hput _ rfl
    · split_ifs at htask
      rw [← Option.some.inj htask]
      exact Waits.notifyAll hw.closed
    · cases htask
  | aclose =>
    rw [← Option.some.inj hstep]
    exact ⟨h.beginDrain, Waits.notifyAll fun _ => rfl⟩
  | drain d =>
    obtain ⟨phase, hd, hdrain⟩ := Option.bind_eq_some_iff.1 hstep
    have hclosed : s.closed = true := hw.closed (List.ne_nil_of_mem (List.mem_of_getElem? hd))
    simp only [State.stepDrain] at hdrain
    split at hdrain
    · rw [← Option.some.inj hdrain]
      refine ⟨h.drain hclosed, ?_⟩
      unfold State.drain
      split_ifs with hzero
      · exact hw.moveDrain hd fun heq => by cases heq
      · split
        · rename_i e x hbind
          have hd' : (s.detachLocked e x).drains[d]? = some .looping := by
            rw [(detachLocked_frame s e x).2.2.2]
            exact hd
          exact (hw.detach (bind_entry hbind).2).moveDrain hd' fun heq => by cases heq
        · rename_i hbind
          refine hw.moveDrain hd fun _ => ⟨hzero, fun e x he hx => ?_⟩
          exact h.not_idle_of_none hbind he hx
    · rename_i e
      split_ifs at hdrain
      rw [← Option.some.inj hdrain]
      exact hkeep hd (by simp) (by simp)
    · cases hdrain
  | cancelDrain d =>
    obtain ⟨phase, hd, hdrain⟩ := Option.bind_eq_some_iff.1 hstep
    simp only [State.stepDrain] at hdrain
    split at hdrain <;>
      first
        | (rw [← Option.some.inj hdrain]; exact hkeep hd (by simp) (by simp))
        | cases hdrain

theorem inv_reach {maxEntries : ℕ} (h : (machine maxEntries).Reach s) :
    Inv s ∧ Waits s ∧ s.maxEntries = maxEntries := by
  refine StepMachine.Reach.induct (P := fun s => Inv s ∧ Waits s ∧ s.maxEntries = maxEntries)
    ⟨inv_initial maxEntries, ⟨?_, ?_⟩, rfl⟩ ?_ h
  · exact fun hne => absurd rfl hne
  · exact fun hmem => by cases hmem
  · rintro t act t' - ⟨hi, hw, hmax⟩ hstep
    obtain ⟨hi', hw'⟩ := inv_step hi hw hstep
    exact ⟨hi', hw', (hi.step_frame hstep).1.trans hmax⟩

/-! ## The guarantees -/

def State.creatingClients (s : State) : ℕ := s.heap.countP fun x => !x.gone && x.owned.isNone

def State.liveClients (s : State) : ℕ :=
  s.heap.countP fun x => !x.gone && x.owned.isSome && !x.closing

def State.closingClients (s : State) : ℕ := s.heap.countP fun x => !x.gone && x.closing

lemma Inv.slots_eq (h : Inv s) :
    s.occupiedSlots = s.creatingClients + s.liveClients + s.closingClients := by
  have hcount : ∀ l : List Entry, (∀ x ∈ l, x.closing = true → x.owned.isSome = true) →
      l.countP (fun x => !x.gone) = l.countP (fun x => !x.gone && x.owned.isNone) +
        l.countP (fun x => !x.gone && x.owned.isSome && !x.closing) +
        l.countP fun x => !x.gone && x.closing := by
    intro l
    induction l with
    | nil => intro _; rfl
    | cons x l ih =>
      intro hall
      have hrest := ih fun y hy => hall y (List.mem_cons_of_mem _ hy)
      have hx := hall x (List.mem_cons_self ..)
      simp only [List.countP_cons]
      cases hg : x.gone <;> cases ho : x.owned <;> cases hc : x.closing <;>
        simp [ho, hc] at hx ⊢ <;> omega
  rw [h.slots]
  refine hcount s.heap fun x hx hclosing => ?_
  obtain ⟨e, he⟩ := List.mem_iff_getElem?.1 hx
  exact ((h.entry e x he).closing hclosing).1

lemma EntryInv.outstanding_of_closing (h : EntryInv s e x)
    (hclosing : x.closing = true) : s.outstanding e = 0 := by
  obtain ⟨hsome, husers⟩ := h.closing hclosing
  rw [← h.users hsome, husers]

lemma Inv.version_le (h : Inv s) (hgrants : Grants s s') {l : Lease}
    (hl : s'.leases = s.leases ++ [l]) (he : e ∈ s.entries)
    (hx : s.heap[e]? = some x) (hscope : x.identity.scope = l.identity.scope) :
    x.identity.connectionVersion ≤ l.identity.connectionVersion := by
  obtain ⟨e₀, x₀, he₀, hx₀, hretiring, hleases⟩ := hgrants
  rw [hl] at hleases
  obtain rfl : l = ⟨e₀, x₀.identity, .held⟩ := by
    simpa using List.append_cancel_left hleases
  rcases Nat.lt_trichotomy e e₀ with hlt | rfl | hlt
  · exact Nat.le_of_lt (h.versions e e₀ x x₀ he he₀ hx hx₀ hscope hlt).1
  · obtain rfl := Option.some.inj (hx.symm.trans hx₀)
    exact Nat.le_refl _
  · have hret := (h.versions e₀ e x₀ x he₀ he hx₀ hx hscope.symm hlt).2
    rw [hretiring] at hret
    cases hret

lemma Inv.busy_of_waiting (h : Inv s) (hw : Waits s) (hwaiting : .waiting ∈ s.drains) :
    (∃ l ∈ s.leases, l.isOutstanding = true) ∨ 0 < s.creatingClients ∨ 0 < s.closingClients := by
  obtain ⟨hpos, hnone⟩ := hw.waiting hwaiting
  rw [h.slots_eq] at hpos
  by_cases hlive : 0 < s.liveClients
  · left
    obtain ⟨x, hx, hcond⟩ := List.countP_pos_iff.1 hlive
    simp only [Bool.and_eq_true, Bool.not_eq_true'] at hcond
    obtain ⟨e, he⟩ := List.mem_iff_getElem?.1 hx
    have hidle := hnone e x ((h.cached e).2 ⟨x, he, hcond.2, hcond.1.1⟩) he
    have husers := (h.entry e x he).users hcond.1.2
    have hused : 0 < s.outstanding e := by
      rw [← husers]
      rw [Entry.isIdle, hcond.1.2] at hidle
      simp only [Bool.true_and, decide_eq_false_iff_not] at hidle
      omega
    obtain ⟨l, hl, hout⟩ := List.countP_pos_iff.1 hused
    exact ⟨l, hl, (Bool.and_eq_true _ _ ▸ hout).2⟩
  · right
    omega

/-- **The guarantees of the client cache**, in every state that its calls reach by any interleaving.
The slot counter counts the clients that are created, live or closing, within the bound, and the
cache raises no internal error. A client is closed at most once, without a lease on it, and has been
closed when its slot is given back; a client that is created has a call that does so, and one that is
closed has a task that goes on. A lease has a client made for the identity that was asked for; a
lease that is handed out has the highest version in the dictionary of its scope. When `aclose`
returns, no slot is occupied, and while it waits something is in use, created or closed. -/
theorem client_cache_safe {maxEntries : ℕ} {s : State} (h : (machine maxEntries).Reach s) :
    (s.occupiedSlots = s.creatingClients + s.liveClients + s.closingClients ∧
      s.occupiedSlots ≤ maxEntries ∧ s.fault = false) ∧
    (∀ (e : ℕ) (x : Entry), s.heap[e]? = some x →
      x.closes ≤ 1 ∧ (x.closing = true ∨ 0 < x.closes → s.outstanding e = 0) ∧
      (x.gone = true → x.owned.isSome = true → x.closes = 1) ∧
      (x.owned = none → x.gone = false →
        ∃ (k : ℕ) (c : Call), s.calls[k]? = some c ∧ c.phase.reserved = some e) ∧
      (x.closing = true → x.gone = false → (s.cleanupStep e x).isSome = true)) ∧
    (∀ l ∈ s.leases, ∃ (x : Entry) (client : Client), s.heap[l.entry]? = some x ∧
      x.owned = some client ∧ client.madeFor = l.identity) ∧
    (∀ (act : Act) (s' : State) (l : Lease), (machine maxEntries).step s act = some s' →
      s'.leases = s.leases ++ [l] → ∀ e ∈ s.entries, ∀ x : Entry, s.heap[e]? = some x →
        x.identity.scope = l.identity.scope →
          x.identity.connectionVersion ≤ l.identity.connectionVersion) ∧
    (.returned ∈ s.drains → s.occupiedSlots = 0) ∧
    (.waiting ∈ s.drains → (∃ l ∈ s.leases, l.isOutstanding = true) ∨
      0 < s.creatingClients ∨ 0 < s.closingClients) := by
  obtain ⟨hinv, hwaits, hmax⟩ := inv_reach h
  refine ⟨⟨hinv.slots_eq, hmax ▸ hinv.bound, hinv.fault⟩, fun e x hx => ?_, fun l hl => ?_, ?_,
    fun hr => (hinv.returned hr).2, hinv.busy_of_waiting hwaits⟩
  · have hentry := hinv.entry e x hx
    refine ⟨?_, ?_, ?_, hentry.reserved, ?_⟩
    · rw [hentry.closes]
      split_ifs <;> omega
    · rintro (hclosing | hcloses)
      · exact hentry.outstanding_of_closing hclosing
      · refine hentry.outstanding_of_closing (hentry.cleanup.2 fun hnone => ?_)
        rw [hentry.closes, hnone] at hcloses
        simp at hcloses
    · intro hgone hsome
      rcases hentry.gone hgone with hnone | hclosed
      · rw [hnone] at hsome
        cases hsome
      · rw [hentry.closes, hclosed]
        rfl
    · intro hclosing hlive
      have hne := hentry.cleanup.1 hclosing
      unfold State.cleanupStep
      cases hc : x.cleanup with
      | none => exact absurd hc hne
      | pending => rfl
      | closing => rfl
      | closed => simp [hlive]
  · obtain ⟨x, hx, hsome, hid⟩ := hinv.leases l hl
    obtain ⟨client, hclient⟩ := Option.isSome_iff_exists.1 hsome
    exact ⟨x, client, hx, hclient, ((hinv.entry _ x hx).client client hclient).trans hid⟩
  · intro act s' l hstep hl e he x hx hscope
    rcases (hinv.step_frame hstep).2 with hlen | hgrants
    · rw [hl, List.length_append, List.length_singleton] at hlen
      omega
    · exact hinv.version_le hgrants hl he hx hscope

/-- One client is created and leased, `aclose` waits for its lease, and closes it. -/
def shutdown : List Act :=
  let identity : Identity := ⟨"p", .openai, "https://api", some "k", some 1, 1⟩
  [.acquire identity (some "key"), .seek 0, .factory 0 true, .install 0, .aclose, .drain 0,
    .release 0, .releaseLocked 0, .cleanup 0, .cleanup 0, .cleanup 0, .drain 0]

/-- After the shutdown the one client was closed once, and no slot is occupied. -/
theorem client_cache_safe_shutdown : ∃ s, (machine 1).Reach s ∧ .returned ∈ s.drains ∧
    s.heap.map Entry.closes = [1] ∧ s.occupiedSlots = 0 := by
  have hrun : ((machine 1).run (machine 1).init shutdown).map (fun s =>
      decide (.returned ∈ s.drains) && decide (s.heap.map Entry.closes = [1])) = some true := by
    decide +kernel
  obtain ⟨s, hs, htrue⟩ := Option.map_eq_some_iff.1 hrun
  simp only [Bool.and_eq_true, decide_eq_true_iff] at htrue
  have hreach : (machine 1).Reach s := StepMachine.reach_of_run hs
  exact ⟨s, hreach, htrue.1, htrue.2, (client_cache_safe hreach).2.2.2.2.1 htrue.1⟩

end Apdl.Agents.ClientCache
