/-
# Steps of an action

How an action on a machine came to its result: each way of putting actions together has its
results told by those of its parts, with the machine in between. What all parts keep, also
where they fail, the whole keeps (`Keeps`). An action that only changes files keeps all of a
machine but its tree and the count of its changes (`With`). Questions are answered by where a path
leads (`isFile_eq_true`).
-/

import SnippetConsole.Machine.Files

namespace SnippetConsole
namespace Machine

open FileTree

variable {ε ε' α β : Type} {m m' : Machine}

/-! ### Results -/

theorem bind_eq_ok {act : Act ε α} {f : α → Act ε β} {b : β} :
    (act >>= f) m = .ok b m' ↔ ∃ a m₁, act m = .ok a m₁ ∧ f a m₁ = .ok b m' := by
  show EStateM.bind act f m = _ ↔ _
  rw [EStateM.bind]
  rcases act m with ⟨a, m₁⟩ | ⟨e, m₁⟩
  · refine ⟨fun h => ⟨a, m₁, rfl, h⟩, ?_⟩
    rintro ⟨a', m₂, heq, h⟩
    cases heq
    exact h
  · simp

theorem bind_eq_error {act : Act ε α} {f : α → Act ε β} {e : ε} :
    (act >>= f) m = .error e m' ↔
      act m = .error e m' ∨ ∃ a m₁, act m = .ok a m₁ ∧ f a m₁ = .error e m' := by
  show EStateM.bind act f m = _ ↔ _
  rw [EStateM.bind]
  rcases act m with ⟨a, m₁⟩ | ⟨e', m₁⟩
  · refine ⟨fun h => .inr ⟨a, m₁, rfl, h⟩, ?_⟩
    rintro (heq | ⟨a', m₂, heq, h⟩)
    · cases heq
    · cases heq
      exact h
  · simp

/-- An action goes on with what its first part answered. -/
theorem bind_of_ok {act : Act ε α} {f : α → Act ε β} {a : α} (h : act m = .ok a m') :
    (act >>= f) m = f a m' := by
  show EStateM.bind act f m = _
  rw [EStateM.bind, h]

theorem bind_of_error {act : Act ε α} {f : α → Act ε β} {e : ε} (h : act m = .error e m') :
    (act >>= f) m = .error e m' := bind_eq_error.2 (.inl h)

/-- What follows two parts of one result comes to the same. -/
theorem bind_eq_bind {act act' : Act ε α} {f : α → Act ε β} {m₁ : Machine}
    (h : act m = act' m₁) : (act >>= f) m = (act' >>= f) m₁ := by
  show EStateM.bind act f m = EStateM.bind act' f m₁
  rw [EStateM.bind, EStateM.bind, h]

theorem asks_eq_ok {f : Machine → Except ε α} {a : α} :
    asks f m = .ok a m' ↔ f m = .ok a ∧ m' = m := by
  rw [asks]
  rcases h : f m with e | a'
  · simp
  · simp [eq_comm]

theorem asks_eq_error {f : Machine → Except ε α} {e : ε} :
    asks f m = .error e m' ↔ f m = .error e ∧ m' = m := by
  rw [asks]
  rcases h : f m with e' | a
  · simp [eq_comm]
  · simp

theorem asks_bind {f : Machine → Except ε α} {g : α → Act ε β} {a : α} (h : f m = .ok a) :
    (asks f >>= g) m = g a m := bind_of_ok (asks_eq_ok.2 ⟨h, rfl⟩)

theorem attempt_eq {act : Act ε α} :
    (attempt act : Act ε' _) m =
      match act m with
      | .ok a m₁ => .ok (.ok a) m₁
      | .error e m₁ => .ok (.error e) m₁ := rfl

theorem attempt_eq_ok {act : Act ε α} {r : Except ε α} :
    (attempt act : Act ε' _) m = .ok r m' ↔
      (∃ a, r = .ok a ∧ act m = .ok a m') ∨ (∃ e, r = .error e ∧ act m = .error e m') := by
  rw [attempt_eq]
  rcases act m with ⟨a, m₁⟩ | ⟨e, m₁⟩
  · constructor
    · intro h
      cases h
      exact .inl ⟨a, rfl, rfl⟩
    · rintro (⟨a', rfl, h⟩ | ⟨e, -, h⟩)
      · cases h
        rfl
      · cases h
  · constructor
    · intro h
      cases h
      exact .inr ⟨e, rfl, rfl⟩
    · rintro (⟨a, -, h⟩ | ⟨e', rfl, h⟩)
      · cases h
      · cases h
        rfl

theorem attempt_of_ok {act : Act ε α} {a : α} (h : act m = .ok a m') :
    (attempt act : Act ε' _) m = .ok (.ok a) m' := attempt_eq_ok.2 (.inl ⟨a, rfl, h⟩)

theorem attempt_of_error {act : Act ε α} {e : ε} (h : act m = .error e m') :
    (attempt act : Act ε' _) m = .ok (.error e) m' := attempt_eq_ok.2 (.inr ⟨e, rfl, h⟩)

theorem attempt_ne_error {act : Act ε α} {e : ε'} :
    (attempt act : Act ε' _) m ≠ .error e m' := by
  rw [attempt_eq]
  rcases act m with ⟨a, m₁⟩ | ⟨e', m₁⟩
  · simp
  · simp

theorem withFault_eq_ok {g : ε → ε'} {act : Act ε α} {a : α} :
    withFault g act m = .ok a m' ↔ act m = .ok a m' := by
  rw [withFault]
  rcases h : act m with ⟨a', m₁⟩ | ⟨e, m₁⟩
  · simp
  · simp

theorem withFault_eq_error {g : ε → ε'} {act : Act ε α} {e : ε} (h : act m = .error e m') :
    withFault g act m = .error (g e) m' := by
  rw [withFault, h]

theorem withFault_eq_error_iff {g : ε → ε'} {act : Act ε α} {e : ε'} :
    withFault g act m = .error e m' ↔ ∃ cause, e = g cause ∧ act m = .error cause m' := by
  constructor
  · intro h
    rw [withFault] at h
    rcases hact : act m with ⟨a, m₁⟩ | ⟨cause, m₁⟩
    · rw [hact] at h
      cases h
    · rw [hact] at h
      cases h
      exact ⟨cause, rfl, rfl⟩
  · rintro ⟨cause, rfl, h⟩
    exact withFault_eq_error h

/-- **Steps in a row stop at the first that fails.** -/
theorem forM_eq_error {act : α → Act ε PUnit} {as : List α} {e : ε} :
    as.forM act m = .error e m' ↔ ∃ front a back m₁, as = front ++ a :: back ∧
      front.forM act m = .ok () m₁ ∧ act a m₁ = .error e m' := by
  induction as generalizing m with
  | nil =>
    refine ⟨fun h => ?_, ?_⟩
    · cases h
    · rintro ⟨front, a, back, -, heq, -⟩
      simp at heq
  | cons a as ih =>
    refine bind_eq_error.trans ⟨?_, ?_⟩
    · rintro (h | ⟨_, m₁, hfirst, h⟩)
      · exact ⟨[], a, as, m, rfl, rfl, h⟩
      · obtain ⟨front, b, back, m₂, rfl, hfront, hb⟩ := ih.1 h
        exact ⟨a :: front, b, back, m₂, rfl, bind_eq_ok.2 ⟨(), m₁, hfirst, hfront⟩, hb⟩
    · rintro ⟨front, b, back, m₁, heq, hfront, hb⟩
      rcases front with _ | ⟨c, front⟩
      · obtain ⟨rfl, rfl⟩ := List.cons.inj heq
        cases hfront
        exact .inl hb
      · obtain ⟨rfl, rfl⟩ := List.cons.inj heq
        obtain ⟨_, m₂, hfirst, hrest⟩ := bind_eq_ok.1 hfront
        exact .inr ⟨(), m₂, hfirst, ih.2 ⟨front, b, back, m₁, rfl, hrest, hb⟩⟩

/-- **A change happens as a whole or not at all.** -/
theorem change_eq_ok {f : Tree → Location → Except Fault Tree} :
    change f m = .ok () m' ↔ m.faults m.changes = none ∧
      ∃ t, f m.tree m.directory = .ok t ∧ m' = { m with tree := t, changes := m.changes + 1 } := by
  rw [change]
  rcases hfault : m.faults m.changes with _ | fault
  · rcases hf : f m.tree m.directory with e | t
    · simp
    · simp [eq_comm]
  · simp

theorem change_eq_error {f : Tree → Location → Except Fault Tree} {e : Fault} :
    change f m = .error e m' ↔ m' = { m with changes := m.changes + 1 } ∧
      (m.faults m.changes = some e ∨
        m.faults m.changes = none ∧ f m.tree m.directory = .error e) := by
  rw [change]
  rcases hfault : m.faults m.changes with _ | fault
  · rcases hf : f m.tree m.directory with e' | t
    · simp [and_comm, eq_comm]
    · simp
  · simp [and_comm, eq_comm]

/-- On a machine without faults a change happens if it can. -/
theorem change_of_sound (hsound : ∀ k, m.faults k = none)
    {f : Tree → Location → Except Fault Tree} {t : Tree} (h : f m.tree m.directory = .ok t) :
    change f m = .ok () { m with tree := t, changes := m.changes + 1 } :=
  change_eq_ok.2 ⟨hsound _, t, h, rfl⟩

theorem after_of_eq_ok {act : Act ε α} {a : α} (h : act m = .ok a m') : m.after act = m' := by
  rw [after, h]

theorem after_of_eq_error {act : Act ε α} {e : ε} (h : act m = .error e m') :
    m.after act = m' := by
  rw [after, h]

/-- An answer made of another one changes nothing. -/
theorem after_bind_pure (act : Act ε α) (f : α → β) :
    m.after (act >>= fun a => pure (f a)) = m.after act := by
  rcases h : act m with ⟨a, m₁⟩ | ⟨e, m₁⟩
  · rw [after_of_eq_ok h]
    exact after_of_eq_ok ((bind_of_ok h).trans rfl)
  · rw [after_of_eq_error h]
    exact after_of_eq_error (bind_of_error h)

/-! ### What is asked -/

section Questions

variable {p : FilePath}

theorem find?_eq_some {place : Location × Node} :
    m.find? p = some place ↔ m.tree.find m.directory true p = .ok place := by
  rw [find?]
  rcases m.tree.find m.directory true p with fault | place'
  · simp [Except.toOption]
  · simp [Except.toOption]

theorem isDirectory_eq_true :
    m.isDirectory p = true ↔ ∃ loc, m.tree.find m.directory true p = .ok (loc, .directory) := by
  simp only [← find?_eq_some, isDirectory]
  rcases m.find? p with _ | ⟨loc, node⟩
  · simp
  · cases node with
    | directory => simp
    | file content => simp
    | link path => simp

theorem isFile_eq_true :
    m.isFile p = true ↔
      ∃ loc content, m.tree.find m.directory true p = .ok (loc, .file content) := by
  simp only [← find?_eq_some, isFile]
  rcases m.find? p with _ | ⟨loc, node⟩
  · simp
  · cases node with
    | directory => simp
    | file content => simp
    | link path => simp

end Questions

/-! ### What actions keep -/

/-- Whatever the action comes to, the machine has the property afterwards if it had it before. -/
def Keeps (I : Machine → Prop) (act : Act ε α) : Prop := ∀ m, I m → I (m.after act)

variable {I : Machine → Prop}

theorem Keeps.ok {act : Act ε α} (h : Keeps I act) (hm : I m) {a : α} (hact : act m = .ok a m') :
    I m' := after_of_eq_ok hact ▸ h m hm

theorem Keeps.error {act : Act ε α} (h : Keeps I act) (hm : I m) {e : ε}
    (hact : act m = .error e m') : I m' := after_of_eq_error hact ▸ h m hm

theorem keeps_of_results {act : Act ε α} (hok : ∀ m a m', I m → act m = .ok a m' → I m')
    (herror : ∀ m e m', I m → act m = .error e m' → I m') : Keeps I act := by
  intro m hm
  rw [after]
  rcases h : act m with ⟨a, m₁⟩ | ⟨e, m₁⟩
  · exact hok m a m₁ hm h
  · exact herror m e m₁ hm h

theorem keeps_pure (a : α) : Keeps I (pure a : Act ε α) := fun _ hm => hm

theorem keeps_throw (e : ε) : Keeps I (throw e : Act ε α) := fun _ hm => hm

theorem keeps_asks (f : Machine → Except ε α) : Keeps I (asks f) := by
  intro m hm
  rcases hrun : asks f m with ⟨a, m₁⟩ | ⟨e, m₁⟩
  · rw [after_of_eq_ok hrun, (asks_eq_ok.1 hrun).2]
    exact hm
  · rw [after_of_eq_error hrun, (asks_eq_error.1 hrun).2]
    exact hm

theorem Keeps.bind {act : Act ε α} {f : α → Act ε β} (h : Keeps I act) (hf : ∀ a, Keeps I (f a)) :
    Keeps I (act >>= f) := by
  refine keeps_of_results (fun m b m' hm hrun => ?_) fun m e m' hm hrun => ?_
  · obtain ⟨a, m₁, hact, hrest⟩ := bind_eq_ok.1 hrun
    exact (hf a).ok (h.ok hm hact) hrest
  · rcases bind_eq_error.1 hrun with hact | ⟨a, m₁, hact, hrest⟩
    · exact h.error hm hact
    · exact (hf a).error (h.ok hm hact) hrest

theorem Keeps.attempt {act : Act ε α} (h : Keeps I act) :
    Keeps I (attempt act : Act ε' (Except ε α)) := by
  intro m hm
  have hafter : m.after (Machine.attempt act : Act ε' (Except ε α)) = m.after act := by
    rw [after, after, attempt_eq]
    rcases act m with ⟨a, m₁⟩ | ⟨e, m₁⟩
    · rfl
    · rfl
  rw [hafter]
  exact h m hm

theorem Keeps.withFault {g : ε → ε'} {act : Act ε α} (h : Keeps I act) :
    Keeps I (Machine.withFault g act) := by
  intro m hm
  have hafter : m.after (Machine.withFault g act) = m.after act := by
    rw [after, after, Machine.withFault]
    rcases act m with ⟨a, m₁⟩ | ⟨e, m₁⟩
    · rfl
    · rfl
  rw [hafter]
  exact h m hm

theorem keeps_forM {act : α → Act ε PUnit} {as : List α} (h : ∀ a ∈ as, Keeps I (act a)) :
    Keeps I (as.forM act) := by
  induction as with
  | nil => exact keeps_pure _
  | cons a as ih =>
    exact (h a List.mem_cons_self).bind fun _ => ih fun b hb => h b (List.mem_cons_of_mem _ hb)

/-- Making a directory with its parents keeps what making one directory keeps. -/
theorem keeps_makeDirectories (h : ∀ q, Keeps I (makeDirectory q)) (p : FilePath) :
    Keeps I (makeDirectories p) := by
  have hifAbsent : ∀ q, Keeps I (makeDirectoryIfAbsent q) := fun q =>
    (h q).attempt.bind fun result => by
      cases result with
      | ok _ => exact keeps_pure _
      | error fault => exact keeps_asks _
  have hwithin : ∀ fuel q, Keeps I (makeDirectoriesWithin fuel q) := by
    intro fuel
    induction fuel with
    | zero => exact fun q => keeps_pure _
    | succ fuel ih =>
      intro q
      rw [makeDirectoriesWithin]
      split
      · exact keeps_pure _
      · refine (h q).attempt.bind fun result => ?_
        cases result with
        | ok _ => exact keeps_pure _
        | error fault =>
          dsimp only
          split
          · split
            · exact keeps_throw _
            · exact (ih _).bind fun _ => hifAbsent q
          · exact keeps_asks _
  exact hwithin _ p

/-- The machine is `m` but for its tree, which has the property, and the count of changes. -/
structure With (m : Machine) (J : Tree → Prop) (m' : Machine) : Prop where
  tree : J m'.tree
  rest : m' = { m with tree := m'.tree, changes := m'.changes }

namespace With

variable {J : Tree → Prop}

theorem refl (h : J m.tree) : m.With J m := ⟨h, rfl⟩

theorem directory_eq (h : m.With J m') : m'.directory = m.directory := by rw [h.rest]

theorem faults_eq (h : m.With J m') : m'.faults = m.faults := by rw [h.rest]

theorem mono {J' : Tree → Prop} (h : m.With J m') (hJ : J m'.tree → J' m'.tree) : m.With J' m' :=
  ⟨hJ h.tree, h.rest⟩

theorem trans {m'' : Machine} {J' : Tree → Prop} (h : m.With J m') (h' : m'.With J' m'') :
    m.With J' m'' := by
  refine ⟨h'.tree, ?_⟩
  rw [h'.rest, h.rest]

end With

/-- **What a change does to the tree is all it does.** -/
theorem after_change {J : Tree → Prop} {f : Tree → Location → Except Fault Tree} (hm : J m.tree)
    (h : ∀ t, f m.tree m.directory = .ok t → J t) : m.With J (m.after (change f)) := by
  rcases hrun : change f m with ⟨_, m₁⟩ | ⟨e, m₁⟩
  · obtain ⟨-, t, hf, rfl⟩ := change_eq_ok.1 hrun
    rw [after_of_eq_ok hrun]
    exact ⟨h t hf, rfl⟩
  · obtain ⟨rfl, -⟩ := change_eq_error.1 hrun
    rw [after_of_eq_error hrun]
    exact ⟨hm, rfl⟩

theorem keeps_change {J : Tree → Prop} {f : Tree → Location → Except Fault Tree}
    (h : ∀ t t', J t → f t m.directory = .ok t' → J t') : Keeps (m.With J) (change f) := by
  intro m₁ hm
  refine hm.trans (after_change hm.tree fun t hf => h _ t hm.tree ?_)
  rw [← hm.directory_eq]
  exact hf

theorem keeps_change_tree {J : Tree → Prop} {f : Tree → Location → Except Fault Tree}
    (h : ∀ t dir t', J t → f t dir = .ok t' → J t') : Keeps (fun m => J m.tree) (change f) :=
  fun m hm => (keeps_change (fun t t' => h t m.directory t') m (.refl hm)).tree

end Machine
end SnippetConsole
