/-
What the statements of the provisioning script leave in Cassandra, and what the
marker at its end should stand for.
-/
import CartyxInfra.Cassandra.Database

namespace CartyxInfra.Cassandra

variable {setup : Setup} {w w' : World} {p : Nat} {statement : Statement}

/-! ## What statements leave -/

/-- What a statement makes of Cassandra, as far as nothing undoes it. -/
def Statement.Shows (w : World) : Statement → Prop
  | .createKeyspace keyspace _ => (w.keyspace keyspace).isSome = true
  | .createRole role _ _ => ∃ r, w.role role = some r
  | .grant permission keyspace role => (permission, keyspace, role) ∈ w.grants
  | .createTable keyspace => w.table keyspace = true
  | .alterRole role _ => ∃ r, w.role role = some r ∧ r.login = false
  | .insert .. | .selectRelease | .selectValue .. | .selectEdges _ | .selectProbe _ => True

/-- The statement opens a login. -/
def Statement.opens : Statement → Bool
  | .alterRole _ login => login
  | _ => false

/-- Nothing is dropped, and no login opened. -/
structure Grows (w w' : World) : Prop where
  keyspace : ∀ k, (w.keyspace k).isSome = true → (w'.keyspace k).isSome = true
  role : ∀ name r, w.role name = some r → ∃ r', w'.role name = some r' ∧ (r.login = false → r'.login = false)
  grants : w.grants ⊆ w'.grants
  table : ∀ k, w.table k = true → w'.table k = true
  applied : w.applied ⊆ w'.applied

theorem Grows.refl (w : World) : Grows w w :=
  ⟨fun _ h => h, fun _ r h => ⟨r, h, id⟩, fun _ h => h, fun _ h => h, fun _ h => h⟩

theorem Grows.shows (h : Grows w w') (hs : statement.Shows w) : statement.Shows w' := by
  cases statement with
  | createKeyspace keyspace => exact h.keyspace keyspace hs
  | createRole role =>
    obtain ⟨r, hr⟩ := hs
    obtain ⟨r', hr', -⟩ := h.role role r hr
    exact ⟨r', hr'⟩
  | grant => exact h.grants hs
  | createTable keyspace => exact h.table keyspace hs
  | alterRole role =>
    obtain ⟨r, hr, hl⟩ := hs
    obtain ⟨r', hr', hl'⟩ := h.role role r hr
    exact ⟨r', hr', hl' hl⟩
  | insert | selectRelease | selectValue | selectEdges | selectProbe => trivial

theorem land_grows (ho : statement.opens = false) : Grows w (w.land statement) := by
  have happlied : w.applied ⊆ (w.land statement).applied := List.subset_cons_self ..
  cases statement with
  | createKeyspace keyspace dc =>
    refine ⟨fun k hk => ?_, fun _ r h => ⟨r, h, id⟩, fun _ h => h, fun _ h => h, happlied⟩
    by_cases he : k = keyspace
    · subst he
      simp [World.land, World.apply]
    · simpa [World.land, World.apply, he] using hk
  | createRole role password superuser =>
    refine ⟨fun _ h => h, fun name r hr => ⟨r, ?_, id⟩, fun _ h => h, fun _ h => h, happlied⟩
    by_cases he : name = role
    · subst he
      simp [World.land, World.apply, hr]
    · simpa [World.land, World.apply, he] using hr
  | grant => exact ⟨fun _ h => h, fun _ r h => ⟨r, h, id⟩, List.subset_cons_self .., fun _ h => h, happlied⟩
  | createTable keyspace =>
    refine ⟨fun _ h => h, fun _ r h => ⟨r, h, id⟩, fun _ h => h, fun k hk => ?_, happlied⟩
    by_cases he : k = keyspace
    · subst he
      simp [World.land, World.apply]
    · simpa [World.land, World.apply, he] using hk
  | alterRole role login =>
    obtain rfl : login = false := ho
    refine ⟨fun _ h => h, fun name r hr => ?_, fun _ h => h, fun _ h => h, happlied⟩
    by_cases he : name = role
    · subst he
      exact ⟨{ r with login := false }, by simp [World.land, World.apply, hr], fun _ => rfl⟩
    · exact ⟨r, by simpa [World.land, World.apply, he] using hr, id⟩
  | insert | selectRelease | selectValue | selectEdges | selectProbe =>
    exact ⟨fun _ h => h, fun _ r h => ⟨r, h, id⟩, fun _ h => h, fun _ h => h, happlied⟩

theorem land_missed : (w.land statement).missed = w.missed := by cases statement <;> rfl

theorem land_shows (ho : statement.opens = false) (hh : w.has statement = true) :
    statement.Shows (w.land statement) := by
  cases statement with
  | createKeyspace | createRole | createTable => simp [Statement.Shows, World.land, World.apply]
  | grant => exact List.mem_cons_self ..
  | alterRole role login =>
    obtain rfl : login = false := ho
    obtain ⟨r, hr⟩ := Option.isSome_iff_exists.mp hh
    exact ⟨{ r with login := false }, by simp [World.land, World.apply, hr], rfl⟩
  | insert | selectRelease | selectValue | selectEdges | selectProbe => trivial

/-! ## The marker -/

/-- The script with the secrets in it. -/
def provisioning (setup : Setup) : List Statement :=
  statements setup (setup.secrets .graph) (setup.secrets .state)

/-- The statement writes the row `ready` reads. -/
def Statement.marks (setup : Setup) : Statement → Bool
  | .insert keyspace id _ => keyspace == setup.state && id == text "bootstrap-v1"
  | _ => false

theorem land_value (hm : statement.marks setup = false) :
    (w.land statement).value setup.state (text "bootstrap-v1") =
      w.value setup.state (text "bootstrap-v1") := by
  cases statement with
  | insert keyspace id value =>
    simp only [World.land, World.apply]
    by_cases hk : setup.state = keyspace
    · subst hk
      have hid : text "bootstrap-v1" ≠ id := fun he => by simp [Statement.marks, he] at hm
      simp [hid]
    · simp [hk]
  | _ => rfl

/-- Every statement of the script has been applied. -/
def AllApplied (setup : Setup) (w : World) : Prop := provisioning setup ⊆ w.applied

/-- Where there is a marker every statement has been applied, and what was applied shows. -/
structure Consistent (setup : Setup) (w : World) : Prop where
  marked : (w.value setup.state (text "bootstrap-v1")).isSome = true → AllApplied setup w
  shown : ∀ statement ∈ w.applied, statement.Shows w

theorem Initial.consistent (h : Initial setup w) : Consistent setup w := by
  refine ⟨fun hm => ?_, fun statement hs => ?_⟩
  · simp [h.unmarked] at hm
  · simp [h.unapplied] at hs

theorem Consistent.land (h : Consistent setup w) (ho : statement.opens = false) (hh : w.has statement = true)
    (hm : statement.marks setup = true → ∀ s ∈ provisioning setup, s ∈ w.applied ∨ s = statement) :
    Consistent setup (w.land statement) := by
  have hg : Grows w (w.land statement) := land_grows ho
  refine ⟨fun hv => ?_, fun s hs => ?_⟩
  · cases hmarks : statement.marks setup with
    | true => exact fun s hs => List.mem_cons.mpr ((hm hmarks s hs).symm)
    | false =>
      rw [land_value hmarks] at hv
      exact fun s hs => hg.applied (h.marked hv hs)
  · rcases List.mem_cons.mp hs with rfl | hs
    · exact land_shows ho hh
    · exact hg.shows (h.shown s hs)

theorem miss_grows : Grows w (w.miss p statement) :=
  ⟨fun _ h => h, fun _ r h => ⟨r, h, id⟩, fun _ h => h, fun _ h => h, fun _ h => h⟩

theorem Consistent.same (h : Consistent setup w) (hg : Grows w w') (hv : w'.value = w.value)
    (ha : w'.applied = w.applied) : Consistent setup w' := by
  refine ⟨fun hm => ?_, fun s hs => ?_⟩
  · rw [hv] at hm
    exact fun s hs => hg.applied (h.marked hm hs)
  · rw [ha] at hs
    exact hg.shows (h.shown s hs)

end CartyxInfra.Cassandra
