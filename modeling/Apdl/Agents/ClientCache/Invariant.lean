import Apdl.Lib.Rows
import Apdl.Agents.ClientCache.Model
import Mathlib.Data.List.Nodup
import Mathlib.Tactic.Common

set_option autoImplicit false

/-!
# The invariant of the client cache

Slots are entries that are not gone, users are outstanding leases, the dictionary holds the entries
that are not being closed, and in a scope only the newest of them is not retiring.

## Main results

* `Inv.putRetiring`, `Inv.detach`, `Inv.grant`, `Inv.reserve`, `Inv.settle`, `Inv.abandon`,
  `Inv.release`, `Inv.cleanupStep` — what the sections do to the cache keeps the invariant.
-/

namespace Apdl.Agents.ClientCache

open Rows

/-! ## The invariant -/

structure EntryInv (s : State) (e : ℕ) (x : Entry) : Prop where
  creating : x.owned = none → x.users = 1 ∧ x.closing = false ∧ s.outstanding e = 0
  /-- An entry without a client is created by a call. -/
  reserved : x.owned = none → x.gone = false →
    ∃ (k : ℕ) (c : Call), s.calls[k]? = some c ∧ c.phase.reserved = some e
  client : ∀ client, x.owned = some client → client.madeFor = x.identity
  users : x.owned.isSome = true → x.users = s.outstanding e
  closing : x.closing = true → x.owned.isSome = true ∧ x.users = 0
  cleanup : x.closing = true ↔ x.cleanup ≠ .none
  closes : x.closes = if x.cleanup = .closing ∨ x.cleanup = .closed then 1 else 0
  /-- The slot is given back when the client is closed, or was never made. -/
  gone : x.gone = true → x.owned = none ∨ x.cleanup = .closed

/-- The invariant of the cache. -/
structure Inv (s : State) : Prop where
  slots : s.occupiedSlots = s.heap.countP fun x => !x.gone
  bound : s.occupiedSlots ≤ s.maxEntries
  nodup : s.entries.Nodup
  cached : ∀ e, e ∈ s.entries ↔ ∃ x : Entry, s.heap[e]? = some x ∧ x.closing = false ∧ x.gone = false
  versions : ∀ (e e' : ℕ) (x x' : Entry), e ∈ s.entries → e' ∈ s.entries → s.heap[e]? = some x →
    s.heap[e']? = some x' → x.identity.scope = x'.identity.scope → e < e' →
    x.identity.connectionVersion < x'.identity.connectionVersion ∧ x.retiring = true
  entry : ∀ (e : ℕ) (x : Entry), s.heap[e]? = some x → EntryInv s e x
  calls : ∀ (k : ℕ) (c : Call) (e : ℕ), s.calls[k]? = some c → c.phase.reserved = some e →
    ∃ x : Entry, s.heap[e]? = some x ∧ x.owned = none ∧ x.gone = false ∧ x.identity = c.identity ∧
      ∀ client, c.phase.client = some client → client.madeFor = x.identity
  reserved : ∀ (k k' : ℕ) (c c' : Call) (e : ℕ), s.calls[k]? = some c → s.calls[k']? = some c' →
    c.phase.reserved = some e → c'.phase.reserved = some e → k = k'
  leases : ∀ l ∈ s.leases, ∃ x : Entry, s.heap[l.entry]? = some x ∧ x.owned.isSome = true ∧
    x.identity = l.identity
  fault : s.fault = false
  returned : .returned ∈ s.drains → s.closed = true ∧ s.occupiedSlots = 0

lemma inv_initial (maxEntries : ℕ) : Inv (State.initial maxEntries) := by
  constructor <;> simp [State.initial]

variable {s : State}

variable {s' : State} {e k j q : ℕ} {x x' : Entry}

lemma EntryInv.congr (h : EntryInv s e x) (hleases : s'.leases = s.leases)
    (hcalls : (∃ (k : ℕ) (c : Call), s.calls[k]? = some c ∧ c.phase.reserved = some e) →
      ∃ (k : ℕ) (c : Call), s'.calls[k]? = some c ∧ c.phase.reserved = some e) : EntryInv s' e x := by
  have hout : s'.outstanding e = s.outstanding e := by rw [State.outstanding, hleases]; rfl
  exact { h with
    creating := fun ho => hout ▸ h.creating ho
    reserved := fun ho hg => hcalls (h.reserved ho hg)
    users := fun ho => hout ▸ h.users ho }

lemma Inv.moveDrain (h : Inv s) {d : ℕ} {next : Drain}
    (hreturned : next = .returned → s.closed = true ∧ s.occupiedSlots = 0) :
    Inv (s.moveDrain d next) :=
  { h with
    entry := fun e x hx => (h.entry e x hx).congr rfl id
    returned := fun hmem => (List.mem_or_eq_of_mem_set hmem).elim h.returned
      fun heq => hreturned heq.symm }

variable {c : Call}

lemma Inv.moveCall (h : Inv s) {phase : Phase} (hc : s.calls[k]? = some c)
    (hreserved : phase.reserved = c.phase.reserved)
    (hclient : ∀ (e : ℕ) (x : Entry) (client : Client), c.phase.reserved = some e → s.heap[e]? = some x →
      phase.client = some client → client.madeFor = x.identity) :
    Inv (s.moveCall k c phase) := by
  have hget : ∀ j : ℕ, (s.moveCall k c phase).calls[j]? =
      if j = k then some { c with phase := phase } else s.calls[j]? :=
    fun j => getElem?_set_of_some hc
  -- every call of the new state reserves what the call of the old state did
  have hback : ∀ (j : ℕ) (c' : Call), (s.moveCall k c phase).calls[j]? = some c' → ∃ c₀ : Call, s.calls[j]? = some c₀ ∧
      c'.phase.reserved = c₀.phase.reserved ∧ c'.identity = c₀.identity := by
    intro j c' hj
    rw [hget] at hj
    split_ifs at hj with hjk
    · obtain rfl := Option.some.inj hj
      exact ⟨c, hjk ▸ hc, hreserved, rfl⟩
    · exact ⟨c', hj, rfl, rfl⟩
  refine { h with
    entry := fun e x hx => (h.entry e x hx).congr rfl ?_
    calls := ?_
    reserved := ?_ }
  · rintro ⟨j, c', hj, hres⟩
    rcases eq_or_ne j k with rfl | hne
    · refine ⟨j, { c with phase := phase }, by rw [hget, if_pos rfl], ?_⟩
      rw [hc] at hj
      rw [← Option.some.inj hj] at hres
      exact hreserved.trans hres
    · exact ⟨j, c', by rw [hget, if_neg hne]; exact hj, hres⟩
  · intro j c' e hj hres
    rcases eq_or_ne j k with rfl | hne
    · rw [hget, if_pos rfl] at hj
      obtain rfl := Option.some.inj hj
      have hres' : c.phase.reserved = some e := hreserved ▸ hres
      obtain ⟨x, hx, ho, hg, hid, -⟩ := h.calls j c e hc hres'
      exact ⟨x, hx, ho, hg, hid, fun client hcl => hclient e x client hres' hx hcl⟩
    · rw [hget, if_neg hne] at hj
      exact h.calls j c' e hj hres
  · intro j j' c₁ c₂ e hj hj' hres hres'
    obtain ⟨c₁', hj₁, hr₁, -⟩ := hback j c₁ hj
    obtain ⟨c₂', hj₂, hr₂, -⟩ := hback j' c₂ hj'
    exact h.reserved j j' c₁' c₂' e hj₁ hj₂ (hr₁ ▸ hres) (hr₂ ▸ hres')

/-! ## One entry changes -/

lemma Inv.rewrite (h : Inv s) (hx : s.heap[e]? = some x)
    (hheap : s'.heap = s.heap.set e x') (hentries : s'.entries = s.entries)
    (hslots : s'.occupiedSlots = s.occupiedSlots) (hmax : s'.maxEntries = s.maxEntries)
    (hclosed : s'.closed = s.closed) (hdrains : s'.drains = s.drains) (hfault : s'.fault = s.fault)
    (hid : x'.identity = x.identity) (hclosing : x'.closing = x.closing) (hgone : x'.gone = x.gone)
    (hretiring : x.retiring = true → x'.retiring = true)
    (howned : x.owned.isSome = true → x'.owned.isSome = true)
    (hself : EntryInv s' e x')
    (hother : ∀ (e' : ℕ) (y : Entry), e' ≠ e → s.heap[e']? = some y → EntryInv s' e' y)
    (hcalls : ∀ (k : ℕ) (c : Call) (e' : ℕ), s'.calls[k]? = some c → c.phase.reserved = some e' →
      s.calls[k]? = some c ∧ (e' = e → x'.owned = none))
    (hleases : ∀ l ∈ s'.leases,
      (∃ l₀ ∈ s.leases, l₀.entry = l.entry ∧ l₀.identity = l.identity) ∨
        (l.entry = e ∧ x'.owned.isSome = true ∧ x'.identity = l.identity)) : Inv s' := by
  have hget : ∀ j : ℕ, s'.heap[j]? = if j = e then some x' else s.heap[j]? := by
    intro j
    rw [hheap]
    exact getElem?_set_of_some hx
  have hback : ∀ (j : ℕ) (y : Entry), s'.heap[j]? = some y → ∃ y₀ : Entry, s.heap[j]? = some y₀ ∧
      y.identity = y₀.identity ∧ y.closing = y₀.closing ∧ y.gone = y₀.gone ∧
      (y₀.retiring = true → y.retiring = true) := by
    intro j y hy
    rw [hget] at hy
    split_ifs at hy with hj
    · obtain rfl := Option.some.inj hy
      exact ⟨x, hj ▸ hx, hid, hclosing, hgone, hretiring⟩
    · exact ⟨y, hy, rfl, rfl, rfl, id⟩
  have hfwd : ∀ (j : ℕ) (y : Entry), s.heap[j]? = some y → ∃ y' : Entry, s'.heap[j]? = some y' ∧
      y'.identity = y.identity ∧ y'.closing = y.closing ∧ y'.gone = y.gone ∧
      (y.owned.isSome = true → y'.owned.isSome = true) := by
    intro j y hy
    rcases eq_or_ne j e with rfl | hne
    · rw [hx] at hy
      obtain rfl := Option.some.inj hy
      exact ⟨x', by rw [hget, if_pos rfl], hid, hclosing, hgone, howned⟩
    · exact ⟨y, by rw [hget, if_neg hne]; exact hy, rfl, rfl, rfl, id⟩
  refine ⟨?_, ?_, ?_, ?_, ?_, ?_, ?_, ?_, ?_, ?_, ?_⟩
  · have hcount := countP_set_of_some (fun y : Entry => !y.gone) (b := x') hx
    rw [hslots, h.slots, hheap]
    rw [hgone] at hcount
    omega
  · rw [hslots, hmax]
    exact h.bound
  · rw [hentries]
    exact h.nodup
  · intro j
    rw [hentries, h.cached]
    constructor
    · rintro ⟨y, hy, hc, hg⟩
      obtain ⟨y', hy', -, hc', hg', -⟩ := hfwd j y hy
      exact ⟨y', hy', hc'.trans hc, hg'.trans hg⟩
    · rintro ⟨y', hy', hc, hg⟩
      obtain ⟨y, hy, -, hc', hg', -⟩ := hback j y' hy'
      exact ⟨y, hy, hc'.symm.trans hc, hg'.symm.trans hg⟩
  · intro e₁ e₂ y₁ y₂ h₁ h₂ hy₁ hy₂ hscope hlt
    rw [hentries] at h₁ h₂
    obtain ⟨z₁, hz₁, hi₁, -, -, hr₁⟩ := hback e₁ y₁ hy₁
    obtain ⟨z₂, hz₂, hi₂, -⟩ := hback e₂ y₂ hy₂
    rw [hi₁, hi₂] at hscope ⊢
    obtain ⟨hver, hret⟩ := h.versions e₁ e₂ z₁ z₂ h₁ h₂ hz₁ hz₂ hscope hlt
    exact ⟨hver, hr₁ hret⟩
  · intro j y hy
    rcases eq_or_ne j e with rfl | hne
    · rw [hget, if_pos rfl] at hy
      exact Option.some.inj hy ▸ hself
    · rw [hget, if_neg hne] at hy
      exact hother j y hne hy
  · intro k c e' hk hres
    obtain ⟨hk', howned'⟩ := hcalls k c e' hk hres
    obtain ⟨y, hy, ho, hg, hident, hcl⟩ := h.calls k c e' hk' hres
    rcases eq_or_ne e' e with rfl | hne
    · rw [hx] at hy
      obtain rfl := Option.some.inj hy
      refine ⟨x', by rw [hget, if_pos rfl], howned' rfl, hgone.trans hg, hid.trans hident, ?_⟩
      intro client hclient
      exact (hcl client hclient).trans hid.symm
    · exact ⟨y, by rw [hget, if_neg hne]; exact hy, ho, hg, hident, hcl⟩
  · intro k k' c c' e' hk hk' hres hres'
    exact h.reserved k k' c c' e' (hcalls k c e' hk hres).1 (hcalls k' c' e' hk' hres').1 hres hres'
  · intro l hl
    rcases hleases l hl with ⟨l₀, hl₀, hent, hident⟩ | ⟨hent, ho, hident⟩
    · obtain ⟨y, hy, ho, hyid⟩ := h.leases l₀ hl₀
      obtain ⟨y', hy', hid', -, -, ho'⟩ := hfwd l₀.entry y hy
      exact ⟨y', hent ▸ hy', ho' ho, hid'.trans (hyid.trans hident)⟩
    · exact ⟨x', by rw [hget, if_pos hent], ho, hident⟩
  · rw [hfault]
    exact h.fault
  · rw [hdrains, hclosed, hslots]
    exact h.returned

lemma Inv.put (h : Inv s) (hx : s.heap[e]? = some x)
    (hid : x'.identity = x.identity) (hclosing : x'.closing = x.closing) (hgone : x'.gone = x.gone)
    (hretiring : x.retiring = true → x'.retiring = true) (howned : x'.owned = x.owned)
    (hself : EntryInv s e x') : Inv (s.put e x') := by
  refine h.rewrite hx rfl rfl rfl rfl rfl rfl rfl hid hclosing hgone hretiring (howned ▸ id)
    (hself.congr rfl id) (fun e' y _ hy => (h.entry e' y hy).congr rfl id) ?_ ?_
  · intro k c e' hk hres
    refine ⟨hk, fun heq => ?_⟩
    obtain ⟨y, hy, ho, -⟩ := h.calls k c e' hk hres
    rw [heq, hx] at hy
    rw [howned, Option.some.inj hy]
    exact ho
  · exact fun l hl => .inl ⟨l, hl, rfl, rfl⟩

lemma Inv.putRetiring (h : Inv s) (hx : s.heap[e]? = some x) :
    Inv (s.put e { x with retiring := true }) := by
  have hentry := h.entry e x hx
  refine h.put hx rfl rfl rfl (fun _ => rfl) rfl ?_
  exact ⟨hentry.creating, hentry.reserved, hentry.client, hentry.users, hentry.closing,
    hentry.cleanup, hentry.closes, hentry.gone⟩

lemma Inv.detach (h : Inv s) (hx : s.heap[e]? = some x)
    (hmem : e ∈ s.entries) (hidle : x.isIdle = true) : Inv (s.detachLocked e x) := by
  have hentry := h.entry e x hx
  obtain ⟨hsome, husers⟩ : x.owned.isSome = true ∧ x.users = 0 := by
    simpa [Entry.isIdle] using hidle
  obtain ⟨x₀, hx₀, hclosing, hgone⟩ := (h.cached e).1 hmem
  rw [hx] at hx₀
  obtain rfl := Option.some.inj hx₀
  have hguard : (x.closing || x.owned.isNone || decide (x.users ≠ 0)) = false := by
    rw [hclosing, husers]
    simpa using hsome
  set x' : Entry := { x with closing := true, cleanup := .pending } with hx'
  have hstate : s.detachLocked e x = { s.put e x' with entries := s.entries.erase e } := by
    rw [State.detachLocked, hguard]
    rfl
  have hget : ∀ j : ℕ, (s.heap.set e x')[j]? = if j = e then some x' else s.heap[j]? :=
    fun j => getElem?_set_of_some hx
  rw [hstate]
  refine ⟨?_, h.bound, h.nodup.erase _, ?_, ?_, ?_, ?_, h.reserved, ?_, h.fault, h.returned⟩
  · have hcount := countP_set_of_some (fun y : Entry => !y.gone) (b := x') hx
    have hsame : x'.gone = x.gone := rfl
    rw [hsame] at hcount
    change s.occupiedSlots = (s.heap.set e x').countP _
    rw [h.slots]
    omega
  · intro j
    change j ∈ s.entries.erase e ↔ ∃ y : Entry, (s.heap.set e x')[j]? = some y ∧ _
    rw [h.nodup.mem_erase_iff, h.cached, hget]
    constructor
    · rintro ⟨hne, y, hy, hc, hg⟩
      exact ⟨y, by rw [if_neg hne]; exact hy, hc, hg⟩
    · rintro ⟨y, hy, hc, hg⟩
      split_ifs at hy with hj
      · obtain rfl := Option.some.inj hy
        cases hc
      · exact ⟨hj, y, hy, hc, hg⟩
  · intro e₁ e₂ y₁ y₂ h₁ h₂ hy₁ hy₂ hscope hlt
    change e₁ ∈ s.entries.erase e at h₁
    change e₂ ∈ s.entries.erase e at h₂
    rw [h.nodup.mem_erase_iff] at h₁ h₂
    change (s.heap.set e x')[e₁]? = some y₁ at hy₁
    change (s.heap.set e x')[e₂]? = some y₂ at hy₂
    rw [hget, if_neg h₁.1] at hy₁
    rw [hget, if_neg h₂.1] at hy₂
    exact h.versions e₁ e₂ y₁ y₂ h₁.2 h₂.2 hy₁ hy₂ hscope hlt
  · intro j y hy
    change (s.heap.set e x')[j]? = some y at hy
    rw [hget] at hy
    split_ifs at hy with hj
    · obtain rfl := Option.some.inj hy
      subst hj
      have hnone : x.cleanup = .none := by
        by_contra hne
        rw [hentry.cleanup.2 hne] at hclosing
        cases hclosing
      refine ⟨?_, ?_, hentry.client, hentry.users, fun _ => ⟨hsome, husers⟩, by simp [hx'], ?_, ?_⟩
      · exact fun ho => absurd hsome (by rw [show x.owned = none from ho]; simp)
      · exact fun ho => absurd hsome (by rw [show x.owned = none from ho]; simp)
      · have hcloses := hentry.closes
        rw [hnone] at hcloses
        simpa [hx'] using hcloses
      · intro hg
        rw [show x'.gone = x.gone from rfl, hgone] at hg
        cases hg
    · exact (h.entry j y hy).congr rfl id
  · intro k c e' hk hres
    obtain ⟨y, hy, ho, hrest⟩ := h.calls k c e' hk hres
    have hne : e' ≠ e := by
      rintro rfl
      rw [hx] at hy
      rw [← Option.some.inj hy] at ho
      rw [ho] at hsome
      cases hsome
    refine ⟨y, ?_, ho, hrest⟩
    change (s.heap.set e x')[e']? = some y
    rw [hget, if_neg hne]
    exact hy
  · intro l hl
    obtain ⟨y, hy, ho, hyid⟩ := h.leases l hl
    change ∃ y : Entry, (s.heap.set e x')[l.entry]? = some y ∧ _
    rcases eq_or_ne l.entry e with heq | hne
    · rw [heq, hx] at hy
      obtain rfl := Option.some.inj hy
      exact ⟨x', by rw [hget, if_pos heq], ho, hyid⟩
    · exact ⟨y, by rw [hget, if_neg hne]; exact hy, ho, hyid⟩

lemma reserved_of_ended (phase : Phase) (hc : s.calls[k]? = some c)
    (hphase : phase.reserved = none) {c' : Call}
    (hj : (s.moveCall k c phase).calls[j]? = some c') (hres : c'.phase.reserved = some e) :
    j ≠ k ∧ s.calls[j]? = some c' := by
  change (s.calls.set k { c with phase := phase })[j]? = some c' at hj
  rw [getElem?_set_of_some hc] at hj
  split_ifs at hj with hjk
  · rw [← Option.some.inj hj, hphase] at hres
    cases hres
  · exact ⟨hjk, hj⟩

lemma EntryInv.of_ended {y : Entry} (h : EntryInv s e y)
    {phase : Phase} (hc : s.calls[k]? = some c) (hne : c.phase.reserved ≠ some e)
    (hcalls : s'.calls = (s.moveCall k c phase).calls)
    (hleases : s'.outstanding e = s.outstanding e) : EntryInv s' e y where
  creating ho := hleases ▸ h.creating ho
  reserved ho hg := by
    obtain ⟨j, c', hj, hres⟩ := h.reserved ho hg
    have hjk : j ≠ k := by
      rintro rfl
      rw [hc] at hj
      rw [Option.some.inj hj] at hne
      exact hne hres
    refine ⟨j, c', ?_, hres⟩
    rw [hcalls]
    change (s.calls.set k { c with phase := phase })[j]? = some c'
    rw [getElem?_set_of_some hc, if_neg hjk]
    exact hj
  client := h.client
  users ho := hleases ▸ h.users ho
  closing := h.closing
  cleanup := h.cleanup
  closes := h.closes
  gone := h.gone

lemma countP_grant (leases : List Lease) (e e' : ℕ) (i : Identity) :
    (leases ++ [(⟨e, i, .held⟩ : Lease)]).countP
        (fun l => decide (l.entry = e') && l.isOutstanding) =
      leases.countP (fun l => decide (l.entry = e') && l.isOutstanding) +
        if e = e' then 1 else 0 := by
  rw [List.countP_append, List.countP_singleton]
  simp [Lease.isOutstanding]

lemma Inv.grant (h : Inv s) (hx : s.heap[e]? = some x)
    (hc : s.calls[k]? = some c) (hid : x.identity = c.identity) (hid' : x'.identity = x.identity)
    (hretiring : x'.retiring = x.retiring) (hopen : x.closing = false) (hlive : x.gone = false)
    (hclosing : x'.closing = x.closing) (hgone : x'.gone = x.gone) (hcleanup : x'.cleanup = x.cleanup)
    (hcloses : x'.closes = x.closes)
    (howned : ∃ client, x'.owned = some client ∧ client.madeFor = x.identity)
    (husers : x'.users = s.outstanding e + 1)
    (hphase : c.phase.reserved = none ∧ x.owned.isSome = true ∨ c.phase.reserved = some e) :
    Inv { s.grant k e c x' with sequence := q } := by
  obtain ⟨client, hclient, hmade⟩ := howned
  have hentry := h.entry e x hx
  -- nobody else creates the entry
  have hsole : ∀ (j : ℕ) (c' : Call), s.calls[j]? = some c' → c'.phase.reserved = some e → j = k := by
    intro j c' hj hres
    rcases hphase with ⟨-, hsome⟩ | hres'
    · obtain ⟨y, hy, ho, -⟩ := h.calls j c' e hj hres
      rw [hx] at hy
      rw [Option.some.inj hy, ho] at hsome
      cases hsome
    · exact h.reserved j k c' c e hj hc hres hres'
  have hout : ∀ e', ({ s.grant k e c x' with sequence := q } : State).outstanding e' =
      s.outstanding e' + if e = e' then 1 else 0 := fun e' => countP_grant _ _ _ _
  refine h.rewrite hx rfl rfl rfl rfl rfl rfl rfl hid' hclosing hgone (fun hr => hretiring.trans hr)
    (fun _ => by simp [hclient]) ?_ ?_ ?_ ?_
  · refine ⟨?_, ?_, ?_, ?_, ?_, ?_, ?_, ?_⟩
    · exact fun ho => absurd ho (by simp [hclient])
    · exact fun ho => absurd ho (by simp [hclient])
    · intro client' hclient'
      rw [hclient] at hclient'
      rw [← Option.some.inj hclient', hid', hmade]
    · intro _
      rw [hout, husers, if_pos rfl]
    · intro hcl
      rw [hclosing, hopen] at hcl
      cases hcl
    · rw [hclosing, hcleanup]
      exact hentry.cleanup
    · rw [hcloses, hcleanup]
      exact hentry.closes
    · intro hg
      rw [hgone, hlive] at hg
      cases hg
  · intro e' y hne hy
    refine (h.entry e' y hy).of_ended hc ?_ rfl ?_
    · rcases hphase with ⟨hnone, -⟩ | hres
      · simp [hnone]
      · rw [hres]
        exact fun heq => hne (Option.some.inj heq).symm
    · rw [hout, if_neg hne.symm]
      rfl
  · intro j c' e' hj hres
    obtain ⟨hne, hj'⟩ := reserved_of_ended .leased hc rfl hj hres
    refine ⟨hj', fun heq => ?_⟩
    exact absurd (hsole j c' hj' (heq ▸ hres)) hne
  · intro l hl
    rcases List.mem_append.1 hl with hl | hl
    · exact .inl ⟨l, hl, rfl, rfl⟩
    · rw [List.mem_singleton.1 hl]
      exact .inr ⟨rfl, by simp [hclient], hid'.trans hid⟩

lemma Inv.settle (h : Inv s) {client : Client}
    (hx : s.heap[e]? = some x) (hc : s.calls[k]? = some c) (hres : c.phase.reserved = some e)
    (hmade : client.madeFor = x.identity) :
    Inv ((s.put e { x with owned := some client, users := 0 }).moveCall k c .failed) := by
  have hentry := h.entry e x hx
  obtain ⟨y, hy, hnone, hlive, -⟩ := h.calls k c e hc hres
  rw [hx] at hy
  obtain rfl := Option.some.inj hy
  obtain ⟨-, hopen, hout⟩ := hentry.creating hnone
  refine h.rewrite hx rfl rfl rfl rfl rfl rfl rfl rfl rfl rfl id (fun _ => rfl) ?_ ?_ ?_ ?_
  · refine ⟨(fun ho => by cases ho), (fun ho => by cases ho), ?_, fun _ => hout.symm,
      fun _ => ⟨rfl, rfl⟩, hentry.cleanup, hentry.closes, ?_⟩
    · intro client' hclient'
      rw [← Option.some.inj hclient']
      exact hmade
    · intro hg
      rw [show x.gone = true from hg] at hlive
      cases hlive
  · intro e' y hne hy
    refine (h.entry e' y hy).of_ended hc ?_ rfl rfl
    rw [hres]
    exact fun heq => hne (Option.some.inj heq).symm
  · intro j c' e' hj hres'
    obtain ⟨hne, hj'⟩ := reserved_of_ended .failed hc rfl hj hres'
    refine ⟨hj', fun heq => ?_⟩
    exact absurd (h.reserved j k c' c e hj' hc (heq ▸ hres') hres) hne
  · exact fun l hl => .inl ⟨l, hl, rfl, rfl⟩

lemma lookup_some {i : Identity} (h : s.lookup i = some e) :
    e ∈ s.entries ∧ ∃ x : Entry, s.heap[e]? = some x ∧ x.identity = i := by
  refine ⟨List.mem_of_find?_eq_some h, ?_⟩
  have hfound := List.find?_some h
  simp only [decide_eq_true_iff] at hfound
  exact Option.map_eq_some_iff.1 hfound

lemma lookup_none {i : Identity} (h : s.lookup i = none) (he : e ∈ s.entries)
    (hx : s.heap[e]? = some x) : x.identity ≠ i := by
  have hmiss := List.find?_eq_none.1 h e he
  simpa [hx] using hmiss

lemma Inv.lookup_self (h : Inv s) (he : e ∈ s.entries)
    (hx : s.heap[e]? = some x) : s.lookup x.identity = some e := by
  cases hfind : s.lookup x.identity with
  | none => exact absurd rfl (lookup_none hfind he hx)
  | some e' =>
    obtain ⟨he', x', hx', hid⟩ := lookup_some hfind
    rcases Nat.lt_trichotomy e e' with hlt | rfl | hlt
    · have hver := (h.versions e e' x x' he he' hx hx' (by rw [hid]) hlt).1
      rw [hid] at hver
      exact absurd hver (Nat.lt_irrefl _)
    · rfl
    · have hver := (h.versions e' e x' x he' he hx' hx (by rw [hid]) hlt).1
      rw [hid] at hver
      exact absurd hver (Nat.lt_irrefl _)

lemma Inv.abandon (h : Inv s) (hx : s.heap[e]? = some x)
    (hc : s.calls[k]? = some c) (hres : c.phase.reserved = some e) :
    Inv { (s.put e { x with gone := true }).moveCall k c .failed with
      entries := if s.lookup x.identity = some e then s.entries.erase e else s.entries
      occupiedSlots := s.occupiedSlots - 1 } := by
  have hentry := h.entry e x hx
  obtain ⟨y, hy, hnone, hlive, -⟩ := h.calls k c e hc hres
  rw [hx] at hy
  obtain rfl := Option.some.inj hy
  obtain ⟨husers, hopen, hout⟩ := hentry.creating hnone
  have hmem : e ∈ s.entries := (h.cached e).2 ⟨x, hx, hopen, hlive⟩
  rw [if_pos (h.lookup_self hmem hx)]
  set x' : Entry := { x with gone := true } with hx'
  have hget : ∀ j : ℕ, (s.heap.set e x')[j]? = if j = e then some x' else s.heap[j]? :=
    fun j => getElem?_set_of_some hx
  have hcount : (s.heap.set e x').countP (fun y => !y.gone) + 1 =
      s.heap.countP fun y => !y.gone := by
    have hset := countP_set_of_some (fun y : Entry => !y.gone) (b := x') hx
    have hgone : x'.gone = true := rfl
    simpa [hlive, hgone] using hset
  have hslots := h.slots
  refine ⟨?_, ?_, h.nodup.erase _, ?_, ?_, ?_, ?_, ?_, ?_, h.fault, ?_⟩
  · change s.occupiedSlots - 1 = (s.heap.set e x').countP _
    omega
  · change s.occupiedSlots - 1 ≤ s.maxEntries
    have hbound := h.bound
    omega
  · intro j
    change j ∈ s.entries.erase e ↔ ∃ y : Entry, (s.heap.set e x')[j]? = some y ∧ _
    rw [h.nodup.mem_erase_iff, h.cached, hget]
    constructor
    · rintro ⟨hne, y, hy, hcl, hg⟩
      exact ⟨y, by rw [if_neg hne]; exact hy, hcl, hg⟩
    · rintro ⟨y, hy, hcl, hg⟩
      split_ifs at hy with hj
      · obtain rfl := Option.some.inj hy
        cases hg
      · exact ⟨hj, y, hy, hcl, hg⟩
  · intro e₁ e₂ y₁ y₂ h₁ h₂ hy₁ hy₂ hscope hlt
    change e₁ ∈ s.entries.erase e at h₁
    change e₂ ∈ s.entries.erase e at h₂
    rw [h.nodup.mem_erase_iff] at h₁ h₂
    change (s.heap.set e x')[e₁]? = some y₁ at hy₁
    change (s.heap.set e x')[e₂]? = some y₂ at hy₂
    rw [hget, if_neg h₁.1] at hy₁
    rw [hget, if_neg h₂.1] at hy₂
    exact h.versions e₁ e₂ y₁ y₂ h₁.2 h₂.2 hy₁ hy₂ hscope hlt
  · intro j y hy
    change (s.heap.set e x')[j]? = some y at hy
    rw [hget] at hy
    split_ifs at hy with hj
    · obtain rfl := Option.some.inj hy
      subst hj
      exact ⟨fun _ => ⟨husers, hopen, hout⟩, (fun _ hg => by cases hg), hentry.client, hentry.users,
        hentry.closing, hentry.cleanup, hentry.closes, fun _ => .inl hnone⟩
    · refine (h.entry j y hy).of_ended hc ?_ rfl rfl
      rw [hres]
      exact fun heq => hj (Option.some.inj heq).symm
  · intro j c' e' hj hres'
    obtain ⟨hne, hj'⟩ := reserved_of_ended .failed hc rfl hj hres'
    obtain ⟨y, hy, hrest⟩ := h.calls j c' e' hj' hres'
    have hee : e' ≠ e := fun heq => hne (h.reserved j k c' c e hj' hc (heq ▸ hres') hres)
    refine ⟨y, ?_, hrest⟩
    change (s.heap.set e x')[e']? = some y
    rw [hget, if_neg hee]
    exact hy
  · intro j j' c₁ c₂ e' hj hj' hres₁ hres₂
    exact h.reserved j j' c₁ c₂ e' (reserved_of_ended .failed hc rfl hj hres₁).2
      (reserved_of_ended .failed hc rfl hj' hres₂).2 hres₁ hres₂
  · intro l hl
    obtain ⟨y, hy, ho, hyid⟩ := h.leases l hl
    have hee : l.entry ≠ e := by
      rintro heq
      rw [heq, hx] at hy
      rw [← Option.some.inj hy, hnone] at ho
      cases ho
    refine ⟨y, ?_, ho, hyid⟩
    change (s.heap.set e x')[l.entry]? = some y
    rw [hget, if_neg hee]
    exact hy
  · intro hr
    obtain ⟨hclosed, hzero⟩ := h.returned hr
    refine ⟨hclosed, ?_⟩
    change s.occupiedSlots - 1 = 0
    omega

lemma Inv.reserve (h : Inv s) (hc : s.calls[k]? = some c)
    (hphase : c.phase.reserved = none) (hopen : s.closed = false)
    (hroom : s.occupiedSlots < s.maxEntries)
    (hversions : ∀ (e : ℕ) (x : Entry), e ∈ s.entries → s.heap[e]? = some x →
      x.identity.scope = c.identity.scope →
      x.identity.connectionVersion < c.identity.connectionVersion ∧ x.retiring = true) :
    Inv { s.moveCall k c (.creating s.heap.length) with
      heap := s.heap ++ [Entry.reserve c.identity q]
      entries := s.entries ++ [s.heap.length]
      occupiedSlots := s.occupiedSlots + 1
      sequence := q } := by
  set x' := Entry.reserve c.identity q with hx'
  have hget : ∀ j : ℕ, (s.heap ++ [x'])[j]? = if j = s.heap.length then some x' else s.heap[j]? := by
    intro j
    rcases Nat.lt_trichotomy j s.heap.length with hlt | rfl | hlt
    · rw [List.getElem?_append_left hlt, if_neg (by omega)]
    · rw [List.getElem?_append_right (Nat.le_refl _), if_pos rfl]
      simp
    · rw [List.getElem?_append_right (by omega), if_neg (by omega),
        List.getElem?_eq_none (by simp; omega), List.getElem?_eq_none (by omega)]
  have hlen : ∀ (j : ℕ) (y : Entry), s.heap[j]? = some y → j < s.heap.length :=
    fun j y hy => (List.getElem?_eq_some_iff.1 hy).1
  have hmemlen : ∀ j ∈ s.entries, j < s.heap.length := by
    intro j hj
    obtain ⟨y, hy, -⟩ := (h.cached j).1 hj
    exact hlen j y hy
  have hcalls : ∀ j : ℕ, (s.calls.set k { c with phase := .creating s.heap.length })[j]? =
      if j = k then some { c with phase := .creating s.heap.length } else s.calls[j]? :=
    fun j => getElem?_set_of_some hc
  -- the old calls go on to create what they created
  have hold : ∀ (j : ℕ) (c' : Call) (e : ℕ), s.calls[j]? = some c' → c'.phase.reserved = some e →
      j ≠ k := by
    rintro j c' e hj hres rfl
    rw [hc] at hj
    rw [← Option.some.inj hj, hphase] at hres
    cases hres
  refine ⟨?_, hroom, ?_, ?_, ?_, ?_, ?_, ?_, ?_, h.fault, ?_⟩
  · change s.occupiedSlots + 1 = (s.heap ++ [x']).countP _
    rw [List.countP_append, List.countP_singleton, h.slots]
    simp [hx', Entry.reserve]
  · refine List.nodup_append.2 ⟨h.nodup, List.nodup_singleton _, fun a ha b hb heq => ?_⟩
    rw [List.mem_singleton.1 hb] at heq
    exact absurd (hmemlen a ha) (by omega)
  · intro j
    change j ∈ s.entries ++ [s.heap.length] ↔ ∃ y : Entry, (s.heap ++ [x'])[j]? = some y ∧ _
    rw [List.mem_append, List.mem_singleton, h.cached, hget]
    constructor
    · rintro (⟨y, hy, hrest⟩ | rfl)
      · exact ⟨y, by rw [if_neg (by have := hlen j y hy; omega)]; exact hy, hrest⟩
      · exact ⟨x', by rw [if_pos rfl], rfl, rfl⟩
    · rintro ⟨y, hy, hrest⟩
      split_ifs at hy with hj
      · exact .inr hj
      · exact .inl ⟨y, hy, hrest⟩
  · intro e₁ e₂ y₁ y₂ h₁ h₂ hy₁ hy₂ hscope hlt
    change e₁ ∈ s.entries ++ [s.heap.length] at h₁
    change e₂ ∈ s.entries ++ [s.heap.length] at h₂
    change (s.heap ++ [x'])[e₁]? = some y₁ at hy₁
    change (s.heap ++ [x'])[e₂]? = some y₂ at hy₂
    rw [List.mem_append, List.mem_singleton] at h₁ h₂
    have hbound : e₁ < s.heap.length := by
      rcases h₂ with h₂ | rfl
      · have := hmemlen e₂ h₂
        omega
      · exact hlt
    rw [hget, if_neg (by omega)] at hy₁
    have h₁' : e₁ ∈ s.entries := h₁.resolve_right (by omega)
    rcases h₂ with h₂ | rfl
    · rw [hget, if_neg (by have := hmemlen e₂ h₂; omega)] at hy₂
      exact h.versions e₁ e₂ y₁ y₂ h₁' h₂ hy₁ hy₂ hscope hlt
    · rw [hget, if_pos rfl] at hy₂
      obtain rfl := Option.some.inj hy₂
      exact hversions e₁ y₁ h₁' hy₁ hscope
  · intro j y hy
    change (s.heap ++ [x'])[j]? = some y at hy
    rw [hget] at hy
    split_ifs at hy with hj
    · obtain rfl := Option.some.inj hy
      have hout : s.outstanding s.heap.length = 0 := by
        refine List.countP_eq_zero.2 fun l hl => ?_
        obtain ⟨y, hy, -⟩ := h.leases l hl
        have := hlen _ y hy
        simp only [Bool.and_eq_true, decide_eq_true_iff, not_and]
        omega
      subst hj
      exact ⟨fun _ => ⟨rfl, rfl, hout⟩,
        fun _ _ => ⟨k, { c with phase := .creating s.heap.length }, by
          change (s.calls.set k _)[k]? = _
          rw [hcalls, if_pos rfl], rfl⟩,
        (fun _ ho => by cases ho), (fun ho => by cases ho), (fun hcl => by cases hcl),
        by simp [hx', Entry.reserve], by simp [hx', Entry.reserve], (fun hg => by cases hg)⟩
    · refine (h.entry j y hy).congr rfl ?_
      rintro ⟨j', c', hj', hres⟩
      refine ⟨j', c', ?_, hres⟩
      change (s.calls.set k _)[j']? = _
      rw [hcalls, if_neg (hold j' c' _ hj' hres)]
      exact hj'
  · intro j c' e' hj hres
    change (s.calls.set k { c with phase := .creating s.heap.length })[j]? = some c' at hj
    change ∃ y : Entry, (s.heap ++ [x'])[e']? = some y ∧ _
    rw [hcalls] at hj
    split_ifs at hj with hjk
    · obtain rfl := Option.some.inj hj
      have he' : e' = s.heap.length := (Option.some.inj hres).symm
      refine ⟨x', by rw [hget, if_pos he'], rfl, rfl, rfl, fun client hcl => by cases hcl⟩
    · obtain ⟨y, hy, hrest⟩ := h.calls j c' e' hj hres
      exact ⟨y, by rw [hget, if_neg (by have := hlen e' y hy; omega)]; exact hy, hrest⟩
  · intro j j' c₁ c₂ e' hj hj' hres₁ hres₂
    change (s.calls.set k { c with phase := .creating s.heap.length })[j]? = some c₁ at hj
    change (s.calls.set k { c with phase := .creating s.heap.length })[j']? = some c₂ at hj'
    rw [hcalls] at hj hj'
    -- an old call creates an entry of the heap, and the new entry is not there yet
    have hsmall : ∀ (i : ℕ) (c' : Call), s.calls[i]? = some c' → c'.phase.reserved = some e' →
        e' ≠ s.heap.length := by
      rintro i c' hi hres rfl
      obtain ⟨y, hy, -⟩ := h.calls i c' _ hi hres
      exact absurd (hlen _ y hy) (Nat.lt_irrefl _)
    split_ifs at hj hj' with hjk hjk' hjk'
    · rw [hjk, hjk']
    · obtain rfl := Option.some.inj hj
      exact absurd (Option.some.inj hres₁).symm (hsmall j' c₂ hj' hres₂)
    · obtain rfl := Option.some.inj hj'
      exact absurd (Option.some.inj hres₂).symm (hsmall j c₁ hj hres₁)
    · exact h.reserved j j' c₁ c₂ e' hj hj' hres₁ hres₂
  · intro l hl
    obtain ⟨y, hy, hrest⟩ := h.leases l hl
    refine ⟨y, ?_, hrest⟩
    change (s.heap ++ [x'])[l.entry]? = some y
    rw [hget, if_neg (by have := hlen _ y hy; omega)]
    exact hy
  · intro hr
    rw [(h.returned hr).1] at hopen
    cases hopen

variable {l : Lease}

lemma outstanding_set (stage : LeaseStage) (hl : s.leases[j]? = some l) (e : ℕ) :
    (s.leases.set j { l with stage := stage }).countP
        (fun l => decide (l.entry = e) && l.isOutstanding) +
      (if decide (l.entry = e) && l.isOutstanding then 1 else 0) =
    s.outstanding e +
      if decide (l.entry = e) && decide (stage ≠ .released) then 1 else 0 :=
  countP_set_of_some (fun l : Lease => decide (l.entry = e) && l.isOutstanding) hl

lemma mem_leases_set {l' : Lease} {stage : LeaseStage} (hl : s.leases[j]? = some l)
    (hmem : l' ∈ s.leases.set j { l with stage := stage }) :
    ∃ l₀ ∈ s.leases, l₀.entry = l'.entry ∧ l₀.identity = l'.identity := by
  rcases List.mem_or_eq_of_mem_set hmem with hmem | rfl
  · exact ⟨l', hmem, rfl, rfl⟩
  · exact ⟨l, List.mem_of_getElem? hl, rfl, rfl⟩

lemma Inv.releasing (h : Inv s) (hl : s.leases[j]? = some l) (hheld : l.stage = .held) :
    Inv { s with leases := s.leases.set j { l with stage := .releasing } } := by
  have hout : ∀ e, ({ s with leases := s.leases.set j { l with stage := .releasing } } :
      State).outstanding e = s.outstanding e := by
    intro e
    have hset := outstanding_set .releasing hl e
    have hone : l.isOutstanding = true := by simp [Lease.isOutstanding, hheld]
    rw [hone] at hset
    change (s.leases.set j _).countP _ = _
    simpa using hset
  exact { h with
    entry := fun e x hx => by
      have hentry := h.entry e x hx
      exact { hentry with
        creating := fun ho => by
          rw [hout]
          exact hentry.creating ho
        users := fun ho => by
          rw [hout]
          exact hentry.users ho }
    leases := fun l' hmem => by
      obtain ⟨l₀, hl₀, hent, hid⟩ := mem_leases_set hl hmem
      rw [← hent, ← hid]
      exact h.leases l₀ hl₀ }

lemma Inv.release (h : Inv s) (hl : s.leases[j]? = some l)
    (hx : s.heap[l.entry]? = some x) (hstage : l.stage = .releasing) :
    1 ≤ x.users ∧ Inv { s.put l.entry { x with users := x.users - 1, sequence := q } with
      leases := s.leases.set j { l with stage := .released }, sequence := q } := by
  have hentry := h.entry l.entry x hx
  obtain ⟨y, hy, hsome, -⟩ := h.leases l (List.mem_of_getElem? hl)
  rw [hx] at hy
  obtain rfl := Option.some.inj hy
  have hone : l.isOutstanding = true := by simp [Lease.isOutstanding, hstage]
  have hset : ∀ e, (s.leases.set j { l with stage := .released }).countP
      (fun l => decide (l.entry = e) && l.isOutstanding) + (if l.entry = e then 1 else 0) =
      s.outstanding e := by
    intro e
    have hset := outstanding_set .released hl e
    rw [hone] at hset
    simpa using hset
  have husers := hentry.users hsome
  have hself := hset l.entry
  rw [if_pos rfl] at hself
  have hpos : 1 ≤ x.users := by omega
  refine ⟨hpos, ?_⟩
  -- an entry in use is not being closed
  have hopen : x.closing = false := by
    by_contra hne
    have hzero := (hentry.closing (by simpa using hne)).2
    omega
  refine h.rewrite hx rfl rfl rfl rfl rfl rfl rfl rfl rfl rfl id id ?_ ?_ ?_ ?_
  · refine ⟨?_, ?_, hentry.client, ?_, ?_, hentry.cleanup, hentry.closes, hentry.gone⟩
    · intro ho
      rw [show x.owned = none from ho] at hsome
      cases hsome
    · intro ho
      rw [show x.owned = none from ho] at hsome
      cases hsome
    · intro _
      change x.users - 1 = (s.leases.set j _).countP _
      omega
    · intro hcl
      rw [show x.closing = true from hcl] at hopen
      cases hopen
  · intro e' y hne hy
    have hother := h.entry e' y hy
    have hsame := hset e'
    rw [if_neg hne.symm] at hsame
    have hout : ({ s.put l.entry { x with users := x.users - 1, sequence := q } with
        leases := s.leases.set j { l with stage := .released }, sequence := q } :
        State).outstanding e' = s.outstanding e' := by
      change (s.leases.set j _).countP _ = _
      omega
    exact { hother with
      creating := fun ho => by
        rw [hout]
        exact hother.creating ho
      users := fun ho => by
        rw [hout]
        exact hother.users ho }
  · intro k c e' hk hres
    refine ⟨hk, fun heq => ?_⟩
    obtain ⟨y, hy, ho, -⟩ := h.calls k c e' hk hres
    rw [heq, hx] at hy
    rw [← Option.some.inj hy] at ho
    exact ho
  · exact fun l' hmem => .inl (mem_leases_set hl hmem)

lemma Inv.cleanupTask (h : Inv s) (hx : s.heap[e]? = some x)
    {cleanup : Cleanup} {closes : ℕ} (hfrom : x.cleanup ≠ .none) (hto : cleanup ≠ .none)
    (hcloses : closes = if cleanup = .closing ∨ cleanup = .closed then 1 else 0)
    (hkept : x.cleanup = .closed → cleanup = .closed) :
    Inv (s.put e { x with cleanup := cleanup, closes := closes }) := by
  have hentry := h.entry e x hx
  refine h.put hx rfl rfl rfl id rfl ?_
  refine ⟨hentry.creating, hentry.reserved, hentry.client, hentry.users, hentry.closing, ?_,
    hcloses, fun hg => (hentry.gone hg).imp id hkept⟩
  exact ⟨fun _ => hto, fun _ => hentry.cleanup.2 hfrom⟩

lemma Inv.releaseSlot (h : Inv s) (hx : s.heap[e]? = some x)
    (hclosed : x.cleanup = .closed) (hlive : x.gone = false) :
    Inv { s.put e { x with gone := true } with occupiedSlots := s.occupiedSlots - 1 } := by
  have hentry := h.entry e x hx
  have hclosing : x.closing = true := hentry.cleanup.2 (by simp [hclosed])
  have hsome := (hentry.closing hclosing).1
  set x' : Entry := { x with gone := true } with hx'
  have hget : ∀ j : ℕ, (s.heap.set e x')[j]? = if j = e then some x' else s.heap[j]? :=
    fun j => getElem?_set_of_some hx
  have hcount : (s.heap.set e x').countP (fun y => !y.gone) + 1 =
      s.heap.countP fun y => !y.gone := by
    have hset := countP_set_of_some (fun y : Entry => !y.gone) (b := x') hx
    have hgone : x'.gone = true := rfl
    simpa [hlive, hgone] using hset
  have hslots := h.slots
  -- an entry that is being closed is not in the dictionary
  have hnot : e ∉ s.entries := by
    intro hmem
    obtain ⟨y, hy, hopen, -⟩ := (h.cached e).1 hmem
    rw [hx] at hy
    rw [← Option.some.inj hy, hclosing] at hopen
    cases hopen
  refine ⟨?_, ?_, h.nodup, ?_, ?_, ?_, ?_, h.reserved, ?_, h.fault, ?_⟩
  · change s.occupiedSlots - 1 = (s.heap.set e x').countP _
    omega
  · change s.occupiedSlots - 1 ≤ s.maxEntries
    have hbound := h.bound
    omega
  · intro j
    change j ∈ s.entries ↔ ∃ y : Entry, (s.heap.set e x')[j]? = some y ∧ _
    rw [hget]
    split_ifs with hj
    · subst hj
      refine ⟨fun hmem => absurd hmem hnot, ?_⟩
      rintro ⟨y, hy, hopen, -⟩
      rw [← Option.some.inj hy] at hopen
      rw [show x.closing = false from hopen] at hclosing
      cases hclosing
    · exact h.cached j
  · intro e₁ e₂ y₁ y₂ h₁ h₂ hy₁ hy₂ hscope hlt
    change (s.heap.set e x')[e₁]? = some y₁ at hy₁
    change (s.heap.set e x')[e₂]? = some y₂ at hy₂
    have hne₁ : e₁ ≠ e := fun heq => hnot (heq ▸ h₁)
    have hne₂ : e₂ ≠ e := fun heq => hnot (heq ▸ h₂)
    rw [hget, if_neg hne₁] at hy₁
    rw [hget, if_neg hne₂] at hy₂
    exact h.versions e₁ e₂ y₁ y₂ h₁ h₂ hy₁ hy₂ hscope hlt
  · intro j y hy
    change (s.heap.set e x')[j]? = some y at hy
    rw [hget] at hy
    split_ifs at hy with hj
    · obtain rfl := Option.some.inj hy
      subst hj
      exact ⟨hentry.creating, (fun _ hg => by cases hg), hentry.client, hentry.users,
        hentry.closing, hentry.cleanup, hentry.closes, fun _ => .inr hclosed⟩
    · exact (h.entry j y hy).congr rfl id
  · intro k c e' hk hres
    obtain ⟨y, hy, ho, hrest⟩ := h.calls k c e' hk hres
    have hne : e' ≠ e := by
      rintro rfl
      rw [hx] at hy
      rw [Option.some.inj hy, ho] at hsome
      cases hsome
    refine ⟨y, ?_, ho, hrest⟩
    change (s.heap.set e x')[e']? = some y
    rw [hget, if_neg hne]
    exact hy
  · intro l hl
    obtain ⟨y, hy, ho, hyid⟩ := h.leases l hl
    change ∃ y : Entry, (s.heap.set e x')[l.entry]? = some y ∧ _
    rcases eq_or_ne l.entry e with heq | hne
    · rw [heq, hx] at hy
      obtain rfl := Option.some.inj hy
      exact ⟨x', by rw [hget, if_pos heq], ho, hyid⟩
    · exact ⟨y, by rw [hget, if_neg hne]; exact hy, ho, hyid⟩
  · intro hr
    obtain ⟨hcl, hzero⟩ := h.returned hr
    refine ⟨hcl, ?_⟩
    change s.occupiedSlots - 1 = 0
    omega

lemma Inv.notifyAll (h : Inv s) : Inv s.notifyAll := by
  have hget : ∀ (j : ℕ) (c : Call), s.notifyAll.calls[j]? = some c → ∃ c₀ : Call,
      s.calls[j]? = some c₀ ∧ (c = c₀ ∨ c.phase.reserved = none) := by
    intro j c hj
    change (s.calls.map _)[j]? = some c at hj
    rw [List.getElem?_map] at hj
    obtain ⟨c₀, hc₀, rfl⟩ := Option.map_eq_some_iff.1 hj
    refine ⟨c₀, hc₀, ?_⟩
    split_ifs with hwait
    · exact .inr rfl
    · exact .inl rfl
  have hold : ∀ (j : ℕ) (c : Call) (e : ℕ), s.notifyAll.calls[j]? = some c →
      c.phase.reserved = some e → s.calls[j]? = some c := by
    intro j c e hj hres
    obtain ⟨c₀, hc₀, rfl | hnone⟩ := hget j c hj
    · exact hc₀
    · rw [hnone] at hres
      cases hres
  exact { h with
    entry := fun e x hx => (h.entry e x hx).congr rfl (by
      rintro ⟨j, c, hj, hres⟩
      refine ⟨j, c, ?_, hres⟩
      change (s.calls.map _)[j]? = some c
      rw [List.getElem?_map, hj]
      have hne : c.phase ≠ .waiting := by
        intro hwait
        rw [hwait] at hres
        cases hres
      simp [hne])
    calls := fun j c e hj hres => h.calls j c e (hold j c e hj hres) hres
    reserved := fun j j' c c' e hj hj' hres hres' =>
      h.reserved j j' c c' e (hold j c e hj hres) (hold j' c' e hj' hres') hres hres'
    returned := fun hmem => by
      obtain ⟨d, hd, heq⟩ := List.mem_map.1 hmem
      split_ifs at heq
      exact h.returned (heq ▸ hd) }

end Apdl.Agents.ClientCache
