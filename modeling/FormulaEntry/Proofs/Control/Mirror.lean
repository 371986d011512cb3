import FormulaEntry.Proofs.Control.Session

/-! Subscribers that copy a field. A subscriber may be called with a datum that an edit
within the same notification has already replaced, so the payload it saw last need not
be the field. But the field it could have read at its last call is the one that stays:
no later edit changes a field without calling those subscribed to it. -/

namespace FormulaEntry

variable {κ σ : Type}

theorem append_eq_append_cons {α : Type} {xs ys pre post : List α} {a : α}
    (h : xs ++ ys = pre ++ a :: post) :
    (∃ post', xs = pre ++ a :: post' ∧ post = post' ++ ys) ∨
      ∃ pre', ys = pre' ++ a :: post ∧ pre = xs ++ pre' := by
  rcases List.append_eq_append_iff.1 h with ⟨mid, rfl, hy⟩ | ⟨mid, rfl, hp⟩
  · exact .inr ⟨mid, hy, rfl⟩
  · rcases List.cons_eq_append_iff.1 hp with ⟨rfl, hy⟩ | ⟨post', rfl, hp⟩
    · exact .inr ⟨[], hy, by simp⟩
    · exact .inl ⟨post', rfl, (List.cons.inj hp).2⟩

/-- What the phase has not been asked to tell `k` about `f`. -/
def Phase.Spares (f : Field) (k : κ) : Phase κ → Prop
  | .free => True
  | .announce _ fields => f ∉ fields
  | .dispatch g _ => g ≠ f
  | .deliver g _ ks => g = f → k ∉ ks

/-- A live control at the end of the events, with all its channels, which `k` has never
left. -/
structure Attends (f : Field) (k : κ) (c c' : Control κ) (es : List (Event (Control κ) κ)) :
    Prop where
  sound : c.Sound
  alive : c'.alive = true
  standing : ∀ g, c'.subscribers g ≠ none
  subscribed : c.Subscribed f k
  kept : .altered (c.channelName f) (.removed k) ∉ es

/-- Over the events the field stays the same datum and `spared` holds, or `k` is called
about the field. -/
def Told (f : Field) (k : κ) (c c' : Control κ) (spared : Prop) (es : List (Event (Control κ) κ)) :
    Prop :=
  (∃ payload found, .called (c.channelName f) k payload found ∈ es) ∨
    (c.content.get f).Same (c'.content.get f) ∧ spared

section

variable {alone byHand : Prop} {ph : Phase κ} {f : Field} {k : κ} {p q : Prop}
variable {c c₁ c₂ : Control κ} {es es₁ es₂ : List (Event (Control κ) κ)}

theorem Attends.fst (h : Attends f k c c₂ (es₁ ++ es₂)) (h₂ : Keeps c₁ c₂ es₂) :
    Attends f k c c₁ es₁ where
  sound := h.sound
  alive := h₂.alive h.alive
  standing g := h₂.standing g (h.standing g)
  subscribed := h.subscribed
  kept he := h.kept (List.mem_append_left _ he)

theorem Attends.anti (h : Attends f k c c₁ es₁) (he : es ⊆ es₁) : Attends f k c c₁ es where
  sound := h.sound
  alive := h.alive
  standing := h.standing
  subscribed := h.subscribed
  kept hr := h.kept (he hr)

theorem Attends.commit {edit : Edit} {content : Content} {remark : Option Remark}
    (h : Attends f k c c₁ es) (hd : Content.ofEdit c.derivation edit = .ok (content, remark)) :
    Attends f k (c.withContent content) c₁ es where
  sound := (Keeps.commit hd).sound h.sound
  alive := h.alive
  standing := h.standing
  subscribed := by simpa [Control.Subscribed] using h.subscribed
  kept he := h.kept (by simpa using he)

theorem Attends.snd (h : Attends f k c c₂ (es₁ ++ es₂)) (h₁ : Keeps c c₁ es₁)
    (h₂ : Keeps c₁ c₂ es₂) : Attends f k c₁ c₂ es₂ where
  sound := h₁.sound h.sound
  alive := h.alive
  standing := h.standing
  subscribed := h₁.subscribed f k h.subscribed ((h.fst h₂).standing f) (h.fst h₂).kept
  kept he := h.kept (List.mem_append_right _ (h₁.channelName f ▸ he))

theorem Told.append (h₁ : Told f k c c₁ p es₁) (h₂ : Told f k c₁ c₂ q es₂)
    (hn : c₁.channelName f = c.channelName f) : Told f k c c₂ (p ∧ q) (es₁ ++ es₂) := by
  rcases h₁ with ⟨payload, found, he⟩ | ⟨hs₁, hp⟩
  · exact .inl ⟨payload, found, List.mem_append_left _ he⟩
  · rcases h₂ with ⟨payload, found, he⟩ | ⟨hs₂, hq⟩
    · exact .inl ⟨payload, found, List.mem_append_right _ (hn ▸ he)⟩
    · exact .inr ⟨hs₁.trans hs₂, hp, hq⟩

theorem Told.imp (h : Told f k c c₁ p es) (he : es ⊆ es₁) (hpq : p → q) : Told f k c c₁ q es₁ := by
  rcases h with ⟨payload, found, h⟩ | ⟨hs, hp⟩
  · exact .inl ⟨payload, found, he h⟩
  · exact .inr ⟨hs, hpq hp⟩

theorem Told.same (h : c.Sound) (ha : c.alive = true) (hp : p) : Told f k c c p es :=
  .inr ⟨(h.content ha).same_self f, hp⟩

theorem Told.commit {content : Content} (hc : c.content.Coherent) (hn : content.Coherent)
    (h : Told f k (c.withContent content) c₁ (f ∉ c.content.changes content) es) :
    Told f k c c₁ True es := by
  rcases h with ⟨payload, found, he⟩ | ⟨hs, hspared⟩
  · exact .inl ⟨payload, found, by simpa using he⟩
  · rw [Content.mem_changes_iff hc hn, Classical.not_not] at hspared
    exact .inr ⟨hspared.trans hs, trivial⟩

theorem Attends.told_append {spared₁ spared₂ : Prop} (h : Attends f k c c₂ (es₁ ++ es₂))
    (h₁ : Keeps c c₁ es₁) (h₂ : Keeps c₁ c₂ es₂)
    (told₁ : Attends f k c c₁ es₁ → Told f k c c₁ spared₁ es₁)
    (told₂ : Attends f k c₁ c₂ es₂ → Told f k c₁ c₂ spared₂ es₂) :
    Told f k c c₂ (spared₁ ∧ spared₂) (es₁ ++ es₂) :=
  (told₁ (h.fst h₂)).append (told₂ (h.snd h₁ h₂)) (h₁.channelName f)

/-- A subscriber hears of every change of its field. -/
theorem Trace.told [DecidableEq κ] (t : Trace alone byHand ph c c₁ es) (h : Attends f k c c₁ es) :
    Told f k c c₁ (ph.Spares f k) es := by
  induction t with
  | idle | logged | noted => exact .same h.sound h.alive trivial
  | altered _ =>
    have ha := h.alive
    rw [Control.alive_withSubscribers] at ha
    exact .inr ⟨by simpa using (h.sound.content ha).same_self f, trivial⟩
  | destroyed _ => exact absurd h.alive (by simp)
  | announced => exact .same h.sound h.alive List.not_mem_nil
  | dropped hn => exact absurd h.alive (by simp [hn])
  | broken _ _ hn => exact absurd hn (h.standing _)
  | delivered => exact .same h.sound h.alive fun _ => List.not_mem_nil
  | seq t₁ t₂ ih₁ ih₂ =>
    exact (h.told_append t₁.keeps t₂.keeps ih₁ ih₂).imp (fun _ => id) fun _ => trivial
  | triggered _ _ ih => exact (ih h).imp (fun _ => id) fun _ => trivial
  | commit ha hd t ih =>
    have h' := h.anti (List.subset_cons_self _ _)
    have htold := Told.commit (h.sound.content ha) (Content.coherent_ofEdit h.sound.derivation hd)
      (ih (h'.commit hd))
    exact htold.imp (List.subset_cons_self _ _) id
  | announce _ t₁ t₂ ih₁ ih₂ =>
    refine (h.told_append t₁.keeps t₂.keeps ih₁ ih₂).imp (fun _ => id) ?_
    rintro ⟨hne, hfs⟩ hmem
    rcases List.mem_cons.1 hmem with rfl | hmem
    · exact hne rfl
    · exact hfs hmem
  | @dispatched c c' g payload ks es hs t ih =>
    have hsub : es ⊆ .opened (c.channelName g) payload :: es ++ [.closed (c.channelName g)] :=
      fun e he => by simp [he]
    refine (ih (h.anti hsub)).imp hsub fun hspared => ?_
    -- `k` is subscribed, so a dispatch of its field that spares it is none of its own
    rintro rfl
    obtain ⟨ks', hs', hk⟩ := h.subscribed
    obtain rfl := Option.some.inj (hs.symm.trans hs')
    exact hspared rfl hk
  | @call c c₁ c₂ g payload k' ks es₁ es₂ t₁ t₂ ih₁ ih₂ =>
    have h' : Attends f k c c₂ (es₁ ++ es₂) := h.anti (List.subset_cons_self _ _)
    by_cases hk : g = f ∧ k' = k
    · obtain ⟨rfl, rfl⟩ := hk
      exact .inl ⟨payload, c, List.mem_cons_self⟩
    · refine (h'.told_append t₁.keeps t₂.keeps ih₁ ih₂).imp (List.subset_cons_self _ _) ?_
      rintro ⟨-, hks⟩ hg hmem
      rcases List.mem_cons.1 hmem with rfl | hmem
      · exact hk ⟨hg, rfl⟩
      · exact hks hg hmem

/-- What a control goes through from some moment on. -/
structure Onward (c c' : Control κ) (es : List (Event (Control κ) κ)) : Prop where
  keeps : Keeps c c' es
  told : ∀ f k, Attends f k c c' es → Told f k c c' True es

theorem Onward.append (h₁ : Onward c c₁ es₁) (h₂ : Onward c₁ c₂ es₂) :
    Onward c c₂ (es₁ ++ es₂) where
  keeps := h₁.keeps.append h₂.keeps
  told f k h := by
    have hfst := h₁.told f k (h.fst h₂.keeps)
    have hsnd := h₂.told f k (h.snd h₁.keeps h₂.keeps)
    exact (hfst.append hsnd (h₁.keeps.channelName f)).imp (fun _ => id) fun _ => trivial

theorem Onward.refl (c : Control κ) (es : List (Event (Control κ) κ)) : Onward c c es where
  keeps := .refl c es
  told _ _ h := .same h.sound h.alive trivial

theorem Trace.onward [DecidableEq κ] (t : Trace alone byHand ph c c₁ es) : Onward c c₁ es where
  keeps := t.keeps
  told _ _ h := (t.told h).imp (fun _ => id) fun _ => trivial

/-- The events can be taken up at any call, with the state that the subscriber found. -/
def Resumable (c c' : Control κ) (es : List (Event (Control κ) κ)) : Prop :=
  ∀ ⦃name k payload found pre post⦄, es = pre ++ .called name k payload found :: post →
    Keeps c found pre ∧ Onward found c' post

namespace Resumable

theorem append (h₁ : Resumable c c₁ es₁) (hk : Keeps c c₁ es₁) (h₂ : Resumable c₁ c₂ es₂)
    (ho : Onward c₁ c₂ es₂) : Resumable c c₂ (es₁ ++ es₂) := by
  intro name k payload found pre post he
  rcases append_eq_append_cons he with ⟨post', he₁, rfl⟩ | ⟨pre', he₂, rfl⟩
  · obtain ⟨hk', ho'⟩ := h₁ he₁
    exact ⟨hk', ho'.append ho⟩
  · obtain ⟨hk', ho'⟩ := h₂ he₂
    exact ⟨hk.append hk', ho'⟩

theorem of_not_called (he : ∀ name k payload found, .called name k payload found ∉ es) :
    Resumable c c₁ es := by
  rintro name k payload found pre post rfl
  exact absurd (List.mem_append_right _ List.mem_cons_self) (he name k payload found)

theorem called (c : Control κ) (name : String) (k : κ) (payload : Datum) :
    Resumable c c [.called name k payload c] := by
  intro name' k' payload' found pre post he
  cases pre with
  | nil =>
    obtain ⟨heq, rfl⟩ := List.cons.inj he
    obtain ⟨-, -, -, rfl⟩ := Event.called.inj heq
    exact ⟨.refl c [], .refl c []⟩
  | cons e pre => exact absurd (List.cons.inj he).2 (by simp)

end Resumable

theorem Trace.resumable [DecidableEq κ] (t : Trace alone byHand ph c c₁ es) :
    Resumable c c₁ es := by
  induction t with
  | idle | announced | dropped | broken | delivered => exact .of_not_called (by simp)
  | logged | noted | altered _ | destroyed _ => exact .of_not_called (by simp)
  | seq t₁ t₂ ih₁ ih₂ => exact ih₁.append t₁.keeps ih₂ t₂.onward
  | triggered _ _ ih => exact ih
  | @commit c _ edit content _ _ _ hd t ih =>
    have hstored : Resumable c (c.withContent content) [.stored c.name edit c.content content] :=
      .of_not_called (by simp)
    exact hstored.append ((Keeps.commit hd).mono (List.nil_subset _)) ih t.onward
  | announce _ t₁ t₂ ih₁ ih₂ => exact ih₁.append t₁.keeps ih₂ t₂.onward
  | @dispatched c c' f payload ks es _ t ih =>
    have hopened : Resumable c c [.opened (c.channelName f) payload] := .of_not_called (by simp)
    have hclosed : Resumable c' c' [.closed (c.channelName f)] := .of_not_called (by simp)
    have hes : Resumable c c' (.opened (c.channelName f) payload :: es) :=
      hopened.append (.refl _ _) ih t.onward
    exact hes.append (t.keeps.mono (List.subset_cons_self _ _)) hclosed (.refl _ _)
  | @call c c₁ c₂ f payload k ks es₁ es₂ t₁ t₂ ih₁ ih₂ =>
    have hcall : Resumable c c₁ (.called (c.channelName f) k payload c :: es₁) :=
      (Resumable.called c _ k payload).append (.refl _ _) ih₁ t₁.onward
    exact hcall.append (t₁.keeps.mono (List.subset_cons_self _ _)) ih₂ t₂.onward

end

variable [DecidableEq κ]

/-- The last call of a subscriber by a channel that it has not left since: the payload,
and the state that it found. -/
def lastCall? (name : String) (k : κ) : List (Event (Control κ) κ) → Option (Datum × Control κ)
  | [] => none
  | .called n k' payload found :: older =>
    if n = name ∧ k' = k then some (payload, found) else lastCall? name k older
  | .altered n (.removed k') :: older =>
    if n = name ∧ k' = k then none else lastCall? name k older
  | _ :: older => lastCall? name k older

/-- The subscriber was called, and nothing newer concerns it. -/
def IsLastCall (name : String) (k : κ) (payload : Datum) (found : Control κ)
    (history : List (Event (Control κ) κ)) : Prop :=
  ∃ newer older, history = newer ++ .called name k payload found :: older ∧
    (∀ p c, .called name k p c ∉ newer) ∧ .altered name (.removed k) ∉ newer

omit [DecidableEq κ] in
theorem IsLastCall.cons {name : String} {k : κ} {payload : Datum} {found : Control κ}
    {history : List (Event (Control κ) κ)} (h : IsLastCall name k payload found history)
    {e : Event (Control κ) κ} (hc : ∀ p c, e ≠ .called name k p c)
    (hr : e ≠ .altered name (.removed k)) : IsLastCall name k payload found (e :: history) := by
  obtain ⟨newer, older, rfl, hcs, hrs⟩ := h
  refine ⟨e :: newer, older, rfl, fun p c he => ?_, fun he => ?_⟩
  · exact (List.mem_cons.1 he).elim (fun heq => hc p c heq.symm) (hcs p c)
  · exact (List.mem_cons.1 he).elim (fun heq => hr heq.symm) hrs

theorem lastCall?_eq_some {name : String} {k : κ} {payload : Datum} {found : Control κ}
    {history : List (Event (Control κ) κ)} (h : lastCall? name k history = some (payload, found)) :
    IsLastCall name k payload found history := by
  induction history using lastCall?.induct name k with
  | case1 => exact absurd h (by simp [lastCall?])
  | case2 n k' p c older heq =>
    rw [lastCall?, if_pos heq] at h
    obtain ⟨rfl, rfl⟩ := heq
    obtain ⟨rfl, rfl⟩ := Prod.mk.inj (Option.some.inj h)
    exact ⟨[], older, rfl, by simp, by simp⟩
  | case3 n k' p c older hne ih =>
    rw [lastCall?, if_neg hne] at h
    exact (ih h).cons (fun _ _ he => hne (by cases he; exact ⟨rfl, rfl⟩)) (by simp)
  | case4 n k' older heq =>
    rw [lastCall?, if_pos heq] at h
    exact absurd h (by simp)
  | case5 n k' older hne ih =>
    rw [lastCall?, if_neg hne] at h
    exact (ih h).cons (by simp) fun he => hne (by cases he; exact ⟨rfl, rfl⟩)
  | case6 e older hc hr ih =>
    rw [lastCall?] at h
    · exact (ih h).cons (fun p c he => hc _ _ _ _ he) fun he => hr _ _ he
    · exact hc
    · exact hr

/-- While `w` came from `w₀`, the subscriber was called about the field, last with this
payload, when it was subscribed, and it has not left since. -/
def LastCalled (w₀ w : World (Control κ) κ σ) (f : Field) (k : κ) (payload : Datum)
    (found : Control κ) : Prop :=
  ∃ recent, w.history = recent ++ w₀.history ∧
    lastCall? (w.state.channelName f) k recent = some (payload, found) ∧ found.Subscribed f k

theorem LastCalled.same {w₀ w : World (Control κ) κ σ} {f : Field} {k : κ} {payload : Datum}
    {found : Control κ} {byHand : Prop} (h : LastCalled w₀ w f k payload found)
    (hl : w₀.Leads byHand .free w) (hsound : w₀.state.Sound) (ha : w.state.alive = true)
    (hs : ∀ g, w.state.subscribers g ≠ none) :
    (found.content.get f).Same (w.state.content.get f) := by
  obtain ⟨recent, hh, hcall, hk⟩ := h
  obtain ⟨newer, older, rfl, hlast, hr⟩ := lastCall?_eq_some hcall
  obtain ⟨es, t, he⟩ := hl
  have hes :
      es = older.reverse ++ .called (w.state.channelName f) k payload found :: newer.reverse := by
    rw [← List.reverse_reverse es, ← List.append_cancel_right (hh.symm.trans he)]
    simp
  obtain ⟨hkeeps, ho⟩ := t.resumable hes
  have hname := ho.keeps.channelName f
  have hattends : Attends f k found w.state newer.reverse :=
    ⟨hkeeps.sound hsound, ha, hs, hk, by rwa [← hname, List.mem_reverse]⟩
  rcases ho.told f k hattends with ⟨p, c, hc⟩ | ⟨hsame, -⟩
  · rw [← hname, List.mem_reverse] at hc
    exact absurd hc (hlast p c)
  · exact hsame

/-- A copy of the last payload is the field, unless the payload had already been replaced
when the subscriber was called with it. -/
theorem last_payload_current_iff (kind : ControlKind) (s : Session κ σ) (a : Step (ControlAction κ))
    {f : Field} {k : κ} {payload : Datum} {found : Control κ}
    (ha : (s.after kind.derivation a).state.alive = true)
    (hs : ∀ g, (s.after kind.derivation a).state.subscribers g ≠ none)
    (hl : LastCalled (s.world kind.derivation) (s.after kind.derivation a) f k payload found) :
    (found.content.get f).Same ((s.after kind.derivation a).state.content.get f) ∧
      (payload.Same ((s.after kind.derivation a).state.content.get f) ↔
        payload.Same (found.content.get f)) := by
  have hsame := hl.same (s.after_leads kind.derivation a) (s.sound_world kind) ha hs
  exact ⟨hsame, fun h => h.trans hsame.symm, fun h => h.trans hsame⟩

/-- A value that has become undetermined is emptied again by the first subscriber; the
second one only watches the text. -/
def overruled : Session Bool Unit where
  name := ""
  subscribers
    | .value => [true]
    | .text => [false]
    | .isValid => []
  audience := {
    label := fun k => if k then "emptying" else "watching"
    react := fun k payload =>
      match k, payload with
      | true, .undetermined => .steps false [.act (.edit (.value .none))]
      | _, _ => .done false }
  depth := 1
  memory := ()
  user := .done false

def mistyping : Step (ControlAction Bool) := .act (.edit (.text (.text "x")))

theorem overruled_lastCalled : ∃ payload found, payload.text? = some "x" ∧
    LastCalled (overruled.world ControlKind.numeric.derivation)
      (overruled.after ControlKind.numeric.derivation mistyping) .text false payload found := by
  have hlast :
      (lastCall?
        ((overruled.after ControlKind.numeric.derivation mistyping).state.channelName .text) false
        (overruled.after ControlKind.numeric.derivation mistyping).history).map
        (fun call => (call.1.text?, call.2.subscribers .text)) = some (some "x", some [false]) := by
    decide +kernel
  obtain ⟨⟨payload, found⟩, hcall, heq⟩ := Option.map_eq_some_iff.1 hlast
  obtain ⟨htext, hks⟩ := Prod.mk.inj heq
  exact ⟨payload, found, htext, _, (List.append_nil _).symm, hcall, [false], hks,
    List.mem_singleton_self _⟩

/-- At its last call the second subscriber could have read the text that stayed. -/
theorem overruled_reads_current : ∃ payload found,
    LastCalled (overruled.world ControlKind.numeric.derivation)
      (overruled.after ControlKind.numeric.derivation mistyping) .text false payload found ∧
    (found.content.get .text).Same
      ((overruled.after ControlKind.numeric.derivation mistyping).state.content.get .text) := by
  obtain ⟨payload, found, -, hlast⟩ := overruled_lastCalled
  have halive : (overruled.after ControlKind.numeric.derivation mistyping).state.alive = true := by
    decide +kernel
  have hstand : ∀ g,
      (overruled.after ControlKind.numeric.derivation mistyping).state.subscribers g ≠ none := by
    intro g
    cases g <;> decide +kernel
  exact ⟨payload, found, hlast,
    (last_payload_current_iff .numeric overruled mistyping halive hstand hlast).1⟩

/-- The text is empty again, and yet the last that was heard of it is what was typed. -/
theorem overruled_stale : ∃ payload found,
    LastCalled (overruled.world ControlKind.numeric.derivation)
      (overruled.after ControlKind.numeric.derivation mistyping) .text false payload found ∧
    (overruled.after ControlKind.numeric.derivation mistyping).state.alive = true ∧
    ¬ payload.Same
        ((overruled.after ControlKind.numeric.derivation mistyping).state.content.get .text) := by
  obtain ⟨payload, found, htext, hlast⟩ := overruled_lastCalled
  refine ⟨payload, found, hlast, by decide +kernel, fun hsame => ?_⟩
  have hempty :
      (overruled.after ControlKind.numeric.derivation mistyping).state.content.text = "" := by
    decide +kernel
  rw [Content.get, hempty] at hsame
  obtain rfl := (Datum.same_iff_eq (by simp)).1 hsame.symm
  exact absurd htext (by simp [Datum.text?])

end FormulaEntry
