/-
Every run of `restore-cluster.mjs` keeps to its own: each call's part, from
what the run knows before it to what the run knows after it.
-/
import CartyxInfra.Restore.Ownership

namespace CartyxInfra.Restore

open JString Backup

variable {Tree : Type} {setup : Setup Tree} {flag : Bool} {p q : Pid} {w w' : World Tree} {space : JString}
  {α β : Type} {A B : World Tree → Prop} {Q R : α → World Tree → Prop} {φ ψ : World Tree → Space → Prop}

/-! ## A call's step -/

/-- A call's step keeps to the run's own. -/
structure Moves (p : Pid) (w w' : World Tree) : Prop where
  inv : Inv w'
  guarantee : Guarantee p w w'
  life : w'.life = w.life
  forwards : w'.forwards = w.forwards

theorem Moves.refl (hw : Inv w) : Moves p w w where
  inv := hw
  guarantee := ⟨fun _ _ => rfl, fun _ _ => ⟨rfl, rfl, rfl⟩, rfl, fun _ _ h _ => h, fun _ _ h _ => h,
    fun _ _ h h' => absurd (h.symm.trans h') (by simp), fun _ => .inl rfl⟩
  life := rfl
  forwards := rfl

/-- A run makes a file that was not there. -/
theorem Moves.setFile {v : World Tree} (h : Moves p w v) {path : Path} {file : Option File}
    (hv : v.files = w.files) (hnone : w.files path = none) : Moves p w (v.setFile path file) where
  inv := ⟨h.inv.claims, h.inv.born, h.inv.quiet⟩
  guarantee := { h.guarantee with
    files := fun other f hf _ => by
      have hne : other ≠ path := by
        rintro rfl
        rw [hnone] at hf
        cases hf
      simp [World.setFile, hne, hv, hf] }
  life := h.life
  forwards := h.forwards

theorem Moves.receive (hw : Inv w) {key : JString} {bytes : Bytes} : Moves p w (w.receive p key bytes) where
  inv := ⟨hw.claims, hw.born, hw.quiet⟩
  guarantee := { (Moves.refl (p := p) hw).guarantee with
    own := fun q hq => ⟨by simp [World.receive, hq], rfl, rfl⟩ }
  life := rfl
  forwards := rfl

/-- A run changes its own namespace, and binds no claim there. -/
theorem Moves.setSpace (hw : Inv w) {s s' : Space} (hs : w.spaces space = some s) (hc : s.creator = some p)
    (hc' : s'.creator = s.creator) (hclaim : s'.claim = s.claim ∨ s'.claim = some none) :
    Moves p w (w.setSpace space (some s')) where
  inv := hw.setSpace fun t ht => by
    cases ht
    refine ⟨fun name hn => ?_, fun q hq => hw.born space s q hs (hc'.symm.trans hq)⟩
    rcases hclaim with hsame | hunbound
    · exact hw.claims space s name hs (hsame.symm.trans hn)
    · rw [hunbound] at hn
      cases hn
  guarantee := { (Moves.refl (p := p) hw).guarantee with
    spaces := fun other t ht hne => by
      have hother : other ≠ space := by
        rintro rfl
        exact hne (by rwa [← Option.some.inj (hs.symm.trans ht)])
      rw [setSpace_ne hother, ht]
    made := fun other t ht ht' => by
      have hother : other ≠ space := by
        rintro rfl
        rw [ht] at hs
        cases hs
      rw [setSpace_ne hother, ht] at ht'
      cases ht' }
  life := rfl
  forwards := rfl

/-- A run makes its namespace. -/
theorem Moves.makeSpace (hw : Inv w) (ha : Alive p w) (hnone : w.spaces space = none) :
    Moves p w (w.setSpace space (some { creator := some p })) where
  inv := hw.setSpace fun t ht => by
    cases ht
    refine ⟨fun name hn => (by cases hn), fun q hq => ?_⟩
    obtain rfl := Option.some.inj hq
    rw [show w.life p = .live from ha]
    simp
  guarantee := { (Moves.refl (p := p) hw).guarantee with
    spaces := fun other t ht _ => by
      have hother : other ≠ space := by
        rintro rfl
        rw [hnone] at ht
        cases ht
      rw [setSpace_ne hother, ht]
    made := fun other t ht ht' => by
      by_cases heq : other = space
      · subst heq
        rw [setSpace_self] at ht'
        cases ht'
        rfl
      · rw [setSpace_ne heq, ht] at ht'
        cases ht' }
  life := rfl
  forwards := rfl

/-- A run writes to the volume of its own namespace. -/
theorem Moves.setTree (hw : Inv w) {s : Space} {name : JString} {volume : Volume Tree}
    (hs : w.spaces space = some s) (hc : s.creator = some p) (hclaim : s.claim = some (some name))
    (hv : w.volumes name = some volume) (tree : Tree) :
    Moves p w (w.setVolume name { volume with tree := tree }) where
  inv := hw.setTree hv tree
  guarantee := { (Moves.refl (p := p) hw).guarantee with
    volumes := fun other => by
      by_cases heq : other = name
      · subst heq
        exact .inr ⟨space, s, hw.claims space s other hs hclaim, hs, hc⟩
      · exact .inl (Function.update_of_ne heq ..) }
  life := rfl
  forwards := rfl

/-- A run notes what it has extracted. -/
theorem Moves.note {v : World Tree} (h : Moves p w v) (hv : v.extracted = w.extracted)
    (entries : List (JString × Bytes)) :
    Moves p w { v with extracted := Function.update v.extracted p entries } where
  inv := ⟨h.inv.claims, h.inv.born, h.inv.quiet⟩
  guarantee := { h.guarantee with
    own := fun q hq => ⟨(h.guarantee.own q hq).1, by simp [hq, hv], (h.guarantee.own q hq).2.2⟩ }
  life := h.life
  forwards := h.forwards

/-! ## How calls end -/

/-- A command on a namespace that is there. -/
theorem command_cases {choice : Choice Tree} {allowed : Space → Bool} {f : Space → Space} {r : Reply Unit}
    {s : Space} (hs : w.spaces space = some s) (h : w.command choice space allowed f = some (r, w')) :
    (r = .ok () ∧ w' = w.setSpace space (some (f s))) ∨
      (∃ message, r = .error message) ∧ (w' = w ∨ w' = w.setSpace space (some (f s))) := by
  have hmap : w.mapSpace space f = w.setSpace space (some (f s)) := by simp [World.mapSpace, hs]
  unfold World.command at h
  split at h
  · rw [hmap] at h
    exact Fallible.write_eq h
  · obtain ⟨rfl, hr⟩ := Fallible.refuse_eq h
    exact .inr ⟨hr, .inl rfl⟩

/-! ## Verified programs -/

/-- What a run has, `flag` being whether its variable `forward` is set. -/
def Owned (flag : Bool) (p : Pid) (B : World Tree → Prop) (forward : Bool) (w : World Tree) : Prop :=
  forward = flag ∧ (flag = false → w.forwards p = false) ∧ Alive p w ∧ B w

variable [DecidableEq Tree]

/-- A program that keeps to the run's own, with what it needs and leaves. -/
abbrev Verified (setup : Setup Tree) (flag : Bool) (p : Pid) (B : World Tree → Prop) (m : Js α)
    (Q : α → World Tree → Prop) : Prop :=
  Triple (protocol setup) (machine setup) always p (Owned flag p B) m (fun a => Owned flag p (Q a))
    fun _ => Owned flag p fun _ => True

theorem Interference.calm (h : (protocol setup).Interference (machine setup) always p w w') (ha : Alive p w) :
    Calm setup p w w' := by
  obtain ⟨hw, -, ⟨q, hq, hg⟩ | ⟨e, he, -⟩⟩ := h
  · exact hg.calm ha hw hq
  · exact (env_sound hw he).2 ha

theorem Kept.stable (hB : Kept setup p B) (forward : Bool) :
    (protocol setup).Stable (machine setup) always p (Owned flag p B forward) := by
  rintro w w' hi ⟨hs, hf, ha, hb⟩
  have hc := Interference.calm hi ha
  exact ⟨hs, fun h => hc.forward (hf h), hc.alive, hB w w' hc hb⟩

theorem Verified.conseq {m : Js α} (h : Verified setup flag p B m Q) (hB : ∀ w, A w → B w)
    (hQ : ∀ a w, Q a w → R a w) : Verified setup flag p A m R :=
  Triple.conseq h (fun _ w _ ⟨hs, hf, ha, hb⟩ => ⟨hs, hf, ha, hB w hb⟩)
    (fun a _ w ⟨hs, hf, ha, hq⟩ => ⟨hs, hf, ha, hQ a w hq⟩) fun _ _ _ h => h

/-- What an assertion says of no world may be used outside of it. -/
theorem Verified.extract {c : Prop} {m : Js α} (hc : ∀ w, B w → c) (h : c → Verified setup flag p B m Q) :
    Verified setup flag p B m Q :=
  Triple.extract (fun _ w hb => hc w hb.2.2.2) h

theorem Owned.exists_pre {ι : Type} {C : ι → World Tree → Prop} {m : Js α} {Z : α → Bool → World Tree → Prop}
    {E : JString → Bool → World Tree → Prop}
    (h : ∀ i, Triple (protocol setup) (machine setup) always p (Owned flag p (C i)) m Z E) :
    Triple (protocol setup) (machine setup) always p (Owned flag p fun w => ∃ i, C i w) m Z E :=
  fun s w hw ⟨hs, hf, ha, i, hb⟩ => h i s w hw ⟨hs, hf, ha, hb⟩

theorem verified_pure (a : α) (h : ∀ w, B w → Q a w) : Verified setup flag p B (pure a) Q :=
  Triple.pure a fun _ w ⟨hs, hf, ha, hb⟩ => ⟨hs, hf, ha, h w hb⟩

theorem verified_fail (message : JString) : Verified setup flag p B (fail message) Q :=
  Triple.throw _ fun _ _ ⟨hs, hf, ha, _⟩ => ⟨hs, hf, ha, trivial⟩

/-- A check, or what is there. -/
theorem verified_await (r : Reply α) :
    Verified setup flag p B (await r) fun a w => B w ∧ r = .ok a := by
  cases r with
  | ok a => exact verified_pure a fun _ h => ⟨h, rfl⟩
  | error message => exact verified_fail message

/-- How the answer to a call goes on. -/
def Continues (r : Js α) (Q : α → World Tree → Prop) (w : World Tree) : Prop :=
  (∃ a, r = pure a ∧ Q a w) ∨ ∃ message, r = fail message

theorem verified_call {c : Call} {next : c.Ret → Js α} (hB : Kept setup p B)
    (h : ∀ w, Inv w → Alive p w → B w → Pending setup p c w ∧ ∀ choice r w',
      perform setup p c choice w = some (r, w') → Moves p w w' ∧ Continues (next r) Q w') :
    Verified setup flag p B (Program.make c >>= next) Q := by
  refine Triple.bind (Q := fun r => Owned flag p (Continues (next r) Q)) (Triple.make hB.stable
    fun s w hw ⟨hs, hf, ha, hb⟩ => ?_) fun r => ?_
  · obtain ⟨hpending, hperform⟩ := h w hw ha hb
    refine ⟨hpending, fun choice r w' hr _ => ?_⟩
    obtain ⟨hmoves, hanswers⟩ := hperform choice r w' hr
    refine ⟨hmoves.inv, hmoves.guarantee, hs, fun hflag => ?_, (congrFun hmoves.life p).trans ha, hanswers⟩
    rw [hmoves.forwards]
    exact hf hflag
  · rintro s w hw ⟨hs, hf, ha, ⟨a, hr, hq⟩ | ⟨message, hr⟩⟩
    · rw [hr]
      exact ⟨hw, hs, hf, ha, hq⟩
    · rw [hr]
      exact ⟨hw, hs, hf, ha, trivial⟩

/-- A call that reads: it finds what there is, or fails. -/
theorem verified_find {c : Call} {next : c.Ret → Js α} {look : World Tree → Option α} (hB : Kept setup p B)
    (hpending : ∀ w, B w → Pending setup p c w)
    (hperform : ∀ w choice r w', perform setup p c choice w = some (r, w') →
      w' = w ∧ ((∃ a, look w = some a ∧ next r = pure a) ∨ ∃ message, next r = fail message)) :
    Verified setup flag p B (Program.make c >>= next) fun a w => B w ∧ look w = some a := by
  refine verified_call hB fun w hw ha hb => ⟨hpending w hb, fun choice r w' hr => ?_⟩
  obtain ⟨rfl, ⟨a, hlook, hnext⟩ | hfail⟩ := hperform w choice r w' hr
  · exact ⟨.refl hw, .inl ⟨a, hnext, hb, hlook⟩⟩
  · exact ⟨.refl hw, .inr hfail⟩

/-- A call whose answer the run relies on for nothing. -/
theorem verified_ask {c : Call} {next : c.Ret → Js α} (hB : Kept setup p B)
    (hpending : ∀ w, B w → Pending setup p c w)
    (hperform : ∀ w choice r w', perform setup p c choice w = some (r, w') →
      w' = w ∧ ((∃ a, next r = pure a) ∨ ∃ message, next r = fail message)) :
    Verified setup flag p B (Program.make c >>= next) fun _ => B := by
  refine verified_call hB fun w hw ha hb => ⟨hpending w hb, fun choice r w' hr => ?_⟩
  obtain ⟨rfl, ⟨a, hnext⟩ | hfail⟩ := hperform w choice r w' hr
  · exact ⟨.refl hw, .inl ⟨a, hnext, hb⟩⟩
  · exact ⟨.refl hw, .inr hfail⟩

/-- A call on the run's own namespace. -/
theorem verified_within {c : Call} {next : c.Ret → Js Unit} (hB : Kept setup p B)
    (hφ : Lasting setup p space φ) (hspaces : ∀ w o, B w → B (w.setSpace space o))
    (hpending : ∀ w, B w → Within p space φ w → Pending setup p c w)
    (hperform : ∀ w s choice r w', B w → w.spaces space = some s → φ w s →
      perform setup p c choice w = some (r, w') → (w' = w ∧ ∃ message, next r = fail message) ∨
        ∃ s', w' = w.setSpace space (some s') ∧ s'.creator = s.creator ∧
          (s'.claim = s.claim ∨ s'.claim = some none) ∧ ψ w' s' ∧
          (next r = pure () ∨ ∃ message, next r = fail message)) :
    Verified setup flag p (fun w => B w ∧ Within p space φ w) (Program.make c >>= next)
      fun _ w => B w ∧ Within p space ψ w := by
  refine verified_call (hB.and (kept_within hφ)) fun w hw ha ⟨hb, s, hs, hc, h⟩ =>
    ⟨hpending w hb ⟨s, hs, hc, h⟩, fun choice r w' hr => ?_⟩
  rcases hperform w s choice r w' hb hs h hr with ⟨rfl, hfail⟩ | ⟨s', rfl, hc', hclaim, hψ, hnext⟩
  · exact ⟨.refl hw, .inr hfail⟩
  · refine ⟨.setSpace hw hs hc hc' hclaim, ?_⟩
    rcases hnext with hnext | hfail
    · exact .inl ⟨(), hnext, hspaces w _ hb, s', setSpace_self, hc'.trans hc, hψ⟩
    · exact .inr hfail

/-- A command on the run's own namespace. -/
theorem verified_command (allowed : Space → Bool) (f : Space → Space) {c : Call} {next : c.Ret → Js Unit}
    (hB : Kept setup p B) (hφ : Lasting setup p space φ) (hspaces : ∀ w o, B w → B (w.setSpace space o))
    (hpending : ∀ w, B w → Within p space φ w → Pending setup p c w)
    (hcreator : ∀ s, (f s).creator = s.creator)
    (hclaim : ∀ s, (f s).claim = s.claim ∨ (f s).claim = some none)
    (hψ : ∀ w s, w.spaces space = some s → φ w s → ψ (w.setSpace space (some (f s))) (f s))
    (hperform : ∀ w choice r w', perform setup p c choice w = some (r, w') →
      ∃ r', w.command choice space allowed f = some (r', w') ∧ next r = await r') :
    Verified setup flag p (fun w => B w ∧ Within p space φ w) (Program.make c >>= next)
      fun _ w => B w ∧ Within p space ψ w := by
  refine verified_within hB hφ hspaces hpending fun w s choice r w' _ hs h hr => ?_
  obtain ⟨r', hcommand, hnext⟩ := hperform w choice r w' hr
  rw [hnext]
  rcases command_cases hs hcommand with ⟨rfl, rfl⟩ | ⟨⟨message, rfl⟩, rfl | rfl⟩
  · exact .inr ⟨f s, rfl, hcreator s, hclaim s, hψ w s hs h, .inl rfl⟩
  · exact .inl ⟨rfl, message, rfl⟩
  · exact .inr ⟨f s, rfl, hcreator s, hclaim s, hψ w s hs h, .inr ⟨message, rfl⟩⟩

end CartyxInfra.Restore
