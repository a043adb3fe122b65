import Apdl.Lib.StepMachine

set_option autoImplicit false

/-!
# Scripts that can be cut off

A *script* is a program that waits for the answers of calls to a world it shares with others. While it
waits the world can drift, a call can be answered with an exception after it had its effect, and the
script can be cut off at any call, so that only the world remains and the next run starts from it. What
such runs keep is shown one call at a time: `Host.Safe` is the assertion that every call that a script
still makes is permitted where it is made and leaves an invariant of the world behind.

## Main results

* `Host.path_of_follow`, `Host.path_rerun` — a followed run is one of the runs.
-/

/-- A program over calls `ι` whose answers have the types `ρ`. -/
inductive Script (ι : Type) (ρ : ι → Type) (α : Type) : Type
  /-- The script has its result. -/
  | done (a : α)
  | await (e : ι) (k : ρ e → Script ι ρ α)

namespace Script

variable {ι : Type} {ρ : ι → Type} {α β ε : Type}

/-- One script after the other. -/
def bind : Script ι ρ α → (α → Script ι ρ β) → Script ι ρ β
  | .done a, f => f a
  | .await e k, f => .await e fun r => (k r).bind f

instance : Monad (Script ι ρ) where
  pure := .done
  bind := Script.bind

/-- `try`: the result of a script with exceptions, the exception included. -/
def attempt (x : ExceptT ε (Script ι ρ) α) : ExceptT ε (Script ι ρ) (Except ε α) :=
  ExceptT.mk (Script.bind x.run fun r => .done (.ok r))

/-- The call of a script with exceptions: an answer can be an exception `φ`. -/
def call {φ : Type} {τ : ι → Type} (raise : φ → ε) (e : ι) :
    ExceptT ε (Script ι fun e => Except φ (τ e)) (τ e) :=
  ExceptT.mk (.await e fun r => .done (r.mapError raise))

end Script

/-- A world `ω` with the answers of calls `ι`: drifts `δ` and outcomes `ο` are chosen by the
environment. -/
structure Host (ι : Type) (ρ : ι → Type) (ω δ ο : Type) where
  /-- What happens without the script; `none` when it cannot happen. -/
  env : ω → δ → Option ω
  /-- What a call does and how it is answered; `none` when the outcome is impossible. -/
  exec : (e : ι) → ω → ο → Option (ω × ρ e)

namespace Host

variable {ι : Type} {ρ : ι → Type} {ω δ ο α β ε : Type} (H : Host ι ρ ω δ ο)

/-- The world can drift from `w` to `w'`. -/
def Drifts : ω → ω → Prop := Relation.ReflTransGen fun w w' => ∃ d, H.env w d = some w'

/-- A predicate that drifting keeps. -/
def Stable (A : ω → Prop) : Prop := ∀ w d w', A w → H.env w d = some w' → A w'

variable {H}

lemma Stable.drifts {A : ω → Prop} (h : H.Stable A) {w w' : ω} (ha : A w) (hd : H.Drifts w w') :
    A w' := by
  induction hd with
  | refl => exact ha
  | tail _ hstep ih =>
    obtain ⟨d, hd⟩ := hstep
    exact h _ d _ ih hd

variable (H)
variable (I : ω → Prop) (P : ι → ω → Prop)

/-- Every call that the script makes from `w` on is permitted by `P` and leaves `I` behind; its result
meets `Q`. -/
def Safe : Script ι ρ α → (α → ω → Prop) → ω → Prop
  | .done a, Q, w => Q a w
  | .await e k, Q, w => ∀ w', H.Drifts w w' →
      P e w' ∧ ∀ o v r, H.exec e w' o = some (v, r) → I v ∧ Safe (k r) Q v

variable {H I P}

/-! ## Rules -/

lemma Safe.mono {Q Q' : α → ω → Prop} (hQ : ∀ a w, Q a w → Q' a w) :
    ∀ {p : Script ι ρ α} {w : ω}, H.Safe I P p Q w → H.Safe I P p Q' w
  | .done _, _, h => hQ _ _ h
  | .await _ _, _, h => fun w' hd =>
    ⟨(h w' hd).1, fun o v r hv => ⟨((h w' hd).2 o v r hv).1, ((h w' hd).2 o v r hv).2.mono hQ⟩⟩

lemma safe_bind {Q : β → ω → Prop} {f : α → Script ι ρ β} :
    ∀ {p : Script ι ρ α} {w : ω}, H.Safe I P p (fun a v => H.Safe I P (f a) Q v) w →
      H.Safe I P (p.bind f) Q w
  | .done _, _, h => h
  | .await _ _, _, h => fun w' hd =>
    ⟨(h w' hd).1, fun o v r hv => ⟨((h w' hd).2 o v r hv).1, safe_bind ((h w' hd).2 o v r hv).2⟩⟩

lemma safe_seq {Q : Except ε β → ω → Prop} {x : ExceptT ε (Script ι ρ) α}
    {f : α → ExceptT ε (Script ι ρ) β} {w : ω}
    (h : H.Safe I P x.run (fun r v => match r with
      | .ok a => H.Safe I P (f a).run Q v
      | .error e => Q (.error e) v) w) :
    H.Safe I P (x >>= f).run Q w := by
  refine safe_bind (h.mono ?_)
  rintro (e | a) v hv
  · exact hv
  · exact hv

lemma safe_attempt {Q : Except ε (Except ε α) → ω → Prop} {x : ExceptT ε (Script ι ρ) α} {w : ω}
    (h : H.Safe I P x.run (fun r v => Q (.ok r) v) w) : H.Safe I P (Script.attempt x).run Q w :=
  safe_bind h

lemma safe_pure {Q : Except ε α → ω → Prop} {a : α} {w : ω} (h : Q (.ok a) w) :
    H.Safe I P (pure a : ExceptT ε (Script ι ρ) α).run Q w := h

lemma safe_throw {Q : Except ε α → ω → Prop} {e : ε} {w : ω} (h : Q (.error e) w) :
    H.Safe I P (throw e : ExceptT ε (Script ι ρ) α).run Q w := h

lemma safe_of_stable {A : ω → Prop} {Q : α → ω → Prop} {e : ι} {k : ρ e → Script ι ρ α} {w : ω}
    (hA : H.Stable A) (ha : A w)
    (h : ∀ v, A v → P e v ∧ ∀ o u r, H.exec e v o = some (u, r) → I u ∧ H.Safe I P (k r) Q u) :
    H.Safe I P (.await e k) Q w :=
  fun v hd => h v (hA.drifts ha hd)

lemma Safe.drifts {p : Script ι ρ α} {w w' : ω} (h : H.Safe I P p (fun _ _ => True) w)
    (hd : H.Drifts w w') : H.Safe I P p (fun _ _ => True) w' := by
  cases p with
  | done a => trivial
  | await e k => exact fun v hv => h v (Relation.ReflTransGen.trans hd hv)

/-! ## Triples -/

section Triple

variable (H I P)

/-- From every world that meets `A`, the script is safe, and if it ends with a result, the result meets
`Q`. -/
def Triple (A : ω → Prop) (x : ExceptT ε (Script ι ρ) α) (Q : α → ω → Prop) : Prop :=
  ∀ w, A w → H.Safe I P x.run (fun r v => ∀ a, r = .ok a → Q a v) w

variable {H I P}

lemma triple_pure {A : ω → Prop} {Q : α → ω → Prop} {a : α} (h : ∀ w, A w → Q a w) :
    H.Triple I P A (pure a : ExceptT ε (Script ι ρ) α) Q := by
  intro w ha b hb
  cases hb
  exact h w ha

lemma triple_throw {A : ω → Prop} {Q : α → ω → Prop} {e : ε} :
    H.Triple I P A (throw e : ExceptT ε (Script ι ρ) α) Q := by
  intro w _ b hb
  cases hb

lemma triple_seq {A : ω → Prop} {Q : α → ω → Prop} {R : β → ω → Prop} {x : ExceptT ε (Script ι ρ) α}
    {f : α → ExceptT ε (Script ι ρ) β} (hx : H.Triple I P A x Q)
    (hf : ∀ a, H.Triple I P (Q a) (f a) R) : H.Triple I P A (x >>= f) R := by
  intro w ha
  refine safe_seq ((hx w ha).mono ?_)
  rintro (e | a) v hv
  · intro b hb
    cases hb
  · exact hf a v (hv a rfl)

lemma Triple.mono {A A' : ω → Prop} {Q Q' : α → ω → Prop} {x : ExceptT ε (Script ι ρ) α}
    (h : H.Triple I P A x Q) (hA : ∀ w, A' w → A w) (hQ : ∀ a w, Q a w → Q' a w) :
    H.Triple I P A' x Q' :=
  fun w ha => (h w (hA w ha)).mono fun _ v hv a hr => hQ a v (hv a hr)

end Triple

lemma triple_call {φ : Type} {τ : ι → Type} {H : Host ι (fun e => Except φ (τ e)) ω δ ο}
    {A : ω → Prop} {e : ι} {Q : τ e → ω → Prop} {raise : φ → ε} (hA : H.Stable A)
    (h : ∀ v, A v → P e v ∧ ∀ o u r, H.exec e v o = some (u, r) → I u ∧ ∀ a, r = .ok a → Q a u) :
    H.Triple I P A (Script.call raise e) Q := by
  intro w ha
  refine safe_of_stable hA ha fun v hv => ⟨(h v hv).1, fun o u r hr => ?_⟩
  obtain ⟨hI, hQ⟩ := (h v hv).2 o u r hr
  refine ⟨hI, fun a hra => ?_⟩
  cases r with
  | error x => cases hra
  | ok b =>
    cases hra
    exact hQ a rfl

/-! ## Runs -/

/-- A world with the script that runs in it, if one does. -/
structure Hosted (ι : Type) (ρ : ι → Type) (ω α : Type) where
  world : ω
  running : Option (Script ι ρ α)

/-- What can happen. -/
inductive Act (δ ο : Type)
  /-- The world drifts. -/
  | env (d : δ)
  | start
  | answer (o : ο)
  /-- The run ends with its result. -/
  | finish
  | cut

/-- The runs of a script. -/
def machine (H : Host ι ρ ω δ ο) (script : Script ι ρ α) (w : ω) :
    StepMachine (Hosted ι ρ ω α) (Act δ ο) where
  init := ⟨w, none⟩
  step s
    | .env d => (H.env s.world d).map fun v => ⟨v, s.running⟩
    | .start =>
      match s.running with
      | none => some ⟨s.world, some script⟩
      | some _ => none
    | .answer o =>
      match s.running with
      | some (.await e k) => (H.exec e s.world o).map fun v => ⟨v.1, some (k v.2)⟩
      | _ => none
    | .finish =>
      match s.running with
      | some (.done _) => some ⟨s.world, none⟩
      | _ => none
    | .cut => some ⟨s.world, none⟩

/-- The invariant of the runs: the world meets `I` and the rest of the run is safe. -/
def Kept (H : Host ι ρ ω δ ο) (I : ω → Prop) (P : ι → ω → Prop) (s : Hosted ι ρ ω α) : Prop :=
  I s.world ∧ ∀ p ∈ s.running, H.Safe I P p (fun _ _ => True) s.world

lemma Kept.step {script : Script ι ρ α} {w : ω} (hI : H.Stable I)
    (hs : ∀ v, I v → H.Safe I P script (fun _ _ => True) v) {s s' : Hosted ι ρ ω α} {a : Act δ ο}
    (h : H.Kept I P s) (hst : (H.machine script w).step s a = some s') : H.Kept I P s' := by
  obtain ⟨world, running⟩ := s
  cases a with
  | env d =>
    obtain ⟨v, hv, rfl⟩ := Option.map_eq_some_iff.1 hst
    exact ⟨hI _ _ _ h.1 hv, fun p hp => (h.2 p hp).drifts (.single ⟨d, hv⟩)⟩
  | start =>
    cases running with
    | some p => cases hst
    | none =>
      cases hst
      refine ⟨h.1, fun p hp => ?_⟩
      rw [Option.mem_some_iff] at hp
      exact hp ▸ hs world h.1
  | answer o =>
    rcases running with _ | (a | ⟨e, k⟩)
    · cases hst
    · cases hst
    · obtain ⟨⟨v, r⟩, hv, rfl⟩ := Option.map_eq_some_iff.1 hst
      have hnext := (h.2 _ rfl world .refl).2 o v r hv
      refine ⟨hnext.1, fun p hp => ?_⟩
      rw [Option.mem_some_iff] at hp
      exact hp ▸ hnext.2
  | finish =>
    rcases running with _ | (a | ⟨e, k⟩)
    · cases hst
    · cases hst
      exact ⟨h.1, fun p hp => absurd hp (Option.not_mem_none p)⟩
    · cases hst
  | cut =>
    cases hst
    exact ⟨h.1, fun p hp => absurd hp (Option.not_mem_none p)⟩

theorem safe_of_reach {script : Script ι ρ α} {w : ω} (hI : H.Stable I) (h0 : I w)
    (hs : ∀ v, I v → H.Safe I P script (fun _ _ => True) v) {s : Hosted ι ρ ω α}
    (h : (H.machine script w).Reach s) :
    I s.world ∧ ∀ e k, s.running = some (.await e k) → P e s.world := by
  have hkept : H.Kept I P s :=
    h.induct (P := H.Kept I P) ⟨h0, fun p hp => absurd hp (Option.not_mem_none p)⟩
      fun _ _ _ _ hk hst => hk.step hI hs hst
  exact ⟨hkept.1, fun e k hrun => (hkept.2 _ hrun s.world .refl).1⟩

/-! ## One run -/

/-- The run of a script in which no drift happens and the outcome of every call is chosen by `choose`. -/
def follow (H : Host ι ρ ω δ ο) (choose : ι → ο) : Script ι ρ α → ω → Option (α × ω)
  | .done a, w => some (a, w)
  | .await e k, w => (H.exec e w (choose e)).bind fun v => follow H choose (k v.2) v.1

lemma follow_bind {choose : ι → ο} {f : α → Script ι ρ β} :
    ∀ {p : Script ι ρ α} {w : ω}, H.follow choose (p.bind f) w =
      (H.follow choose p w).bind fun v => H.follow choose (f v.1) v.2
  | .done _, _ => rfl
  | .await e k, w => by
    show (H.exec e w (choose e)).bind (fun v => H.follow choose ((k v.2).bind f) v.1) = _
    rw [follow, Option.bind_assoc]
    exact congrArg _ (funext fun v => follow_bind)

lemma follow_seq {choose : ι → ο} {x : ExceptT ε (Script ι ρ) α}
    {f : α → ExceptT ε (Script ι ρ) β} {w v : ω} {a : α}
    (h : H.follow choose x.run w = some (.ok a, v)) :
    H.follow choose (x >>= f).run w = H.follow choose (f a).run v := by
  refine follow_bind.trans ?_
  rw [show H.follow choose x w = some (.ok a, v) from h]
  rfl

theorem path_of_follow {choose : ι → ο} {script : Script ι ρ α} {init : ω} {a : α} :
    ∀ {p : Script ι ρ α} {w v : ω}, H.follow choose p w = some (a, v) →
      (H.machine script init).Path ⟨w, some p⟩ ⟨v, some (.done a)⟩
  | .done _, _, _, h => by
    cases h
    exact .refl
  | .await e k, w, v, h => by
    obtain ⟨⟨u, r⟩, hu, hrest⟩ := Option.bind_eq_some_iff.1 h
    refine Relation.ReflTransGen.head ⟨.answer (choose e), ?_⟩ (path_of_follow hrest)
    show (H.exec e w (choose e)).map _ = _
    rw [hu]
    rfl

theorem path_rerun {choose : ι → ο} {script : Script ι ρ α} {init v : ω} {a : α}
    {s : Hosted ι ρ ω α} (h : H.follow choose script s.world = some (a, v)) :
    (H.machine script init).Path s ⟨v, none⟩ := by
  have hcut : (H.machine script init).Path s ⟨s.world, some script⟩ :=
    .tail (.single ⟨.cut, rfl⟩) ⟨.start, rfl⟩
  have hfinish : (H.machine script init).Path ⟨v, some (.done a)⟩ ⟨v, none⟩ :=
    .single ⟨.finish, rfl⟩
  exact hcut.trans ((path_of_follow h).trans hfinish)

end Host
