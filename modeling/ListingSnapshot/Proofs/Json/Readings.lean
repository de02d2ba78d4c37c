import ListingSnapshot.Json.Decode
import ListingSnapshot.Proofs.Json.Unambiguity

/-!
# What readers make of trees

A reader works on bytes, but what it accepts is best said of trees: `Reads r M` holds if `r` reads
from a spelled tree the value that `M` relates to it, and from nothing else. Blanks, escapes and the
order in which bytes are looked at have no part in `M`. Such statements are put together as readers
are.

## Main definitions

* `Json.Reader.Reads`: what a reader makes of trees.
* `Json.Reader.ReadsOnly`: what trees a reader needs to make something.
* `Json.IsNatural`, `Json.OrNull`: trees of natural numbers, and of values that may be missing.

## Main results

* `Json.Reader.Reads.decode_eq_ok_iff`: what a whole text is read as.
* `Json.Reader.reads_natural`, `Json.Reader.reads_string`, `Json.Reader.reads_truth`,
  `Json.Reader.reads_nothing`, `Json.Reader.Reads.optional`: the values without parts.
-/

namespace ListingSnapshot.Json

variable {α β : Type}

namespace Reader

/-- The reader answers only in front of a spelled tree, with a value that `M` relates to the tree,
and it leaves what is behind the tree. A reader with limits need not answer for every tree. -/
structure ReadsOnly (r : Reader α) (M : Tree → α → Prop) : Prop where
  sound : ∀ {s a rest}, r.run s = .value a rest → ∃ t, Spells Lenient t (unblank s) rest ∧ M t a

/-- The reader answers with `a` in front of a spelled tree if `M` relates `a` to the tree, and it
leaves what is behind the tree; and it answers with nothing else. -/
structure Reads (r : Reader α) (M : Tree → α → Prop) : Prop extends ReadsOnly r M where
  complete : ∀ {t s rest a}, Spells Lenient t (unblank s) rest → Delimited rest → M t a →
    r.run s = .value a rest

/-! ### Whole texts -/

theorem run_whole_eq_value_iff {r : Reader α} {s rest : Bytes} {a : α} :
    r.whole.run s = .value a rest ↔
      ∃ middle, r.run s = .value a middle ∧ unblank middle = [] ∧ rest = [] := by
  rw [whole, run_bind_eq_value_iff]
  constructor
  · rintro ⟨b, middle, hr, h⟩
    rw [run_bind_of_value _ (run_blanks middle)] at h
    cases hm : unblank middle with
    | nil =>
      rw [hm] at h
      obtain ⟨rfl, rfl⟩ := Outcome.value.inj h
      exact ⟨middle, hr, hm, rfl⟩
    | cons c m =>
      rw [hm] at h
      cases h
  · rintro ⟨middle, hr, hm, rfl⟩
    refine ⟨a, middle, hr, ?_⟩
    rw [run_bind_of_value _ (run_blanks middle), hm]
    rfl

theorem decode_eq_ok_iff_run {r : Reader α} {text : Bytes} {a : α} :
    decode r text = .ok a ↔ ∃ rest, r.run text = .value a rest ∧ unblank rest = [] := by
  rw [decode]
  constructor
  · intro h
    split at h
    · next b rest hr =>
      obtain rfl := Except.ok.inj h
      obtain ⟨middle, hm, hblank, _⟩ := run_whole_eq_value_iff.mp hr
      exact ⟨middle, hm, hblank⟩
    · cases h
  · rintro ⟨rest, hr, hblank⟩
    rw [run_whole_eq_value_iff.mpr ⟨rest, hr, hblank, rfl⟩]

/-- A whole text that is read as `a` spells a tree that `M` relates to `a`. -/
theorem ReadsOnly.exists_text {r : Reader α} {M : Tree → α → Prop} (h : r.ReadsOnly M)
    {text : Bytes} {a : α} (hdecode : decode r text = .ok a) :
    ∃ t, Text Lenient t text ∧ M t a := by
  obtain ⟨rest, hr, hblank⟩ := decode_eq_ok_iff_run.mp hdecode
  obtain ⟨t, ht, hm⟩ := h.sound hr
  exact ⟨t, ⟨rest, ht, hblank⟩, hm⟩

namespace Reads

variable {r : Reader α} {M : Tree → α → Prop}

/-- A whole text is read as `a` if it spells a tree that `M` relates to `a`. -/
theorem decode_eq_ok_iff (h : r.Reads M) {text : Bytes} {a : α} :
    decode r text = .ok a ↔ ∃ t, Text Lenient t text ∧ M t a := by
  refine ⟨h.toReadsOnly.exists_text, ?_⟩
  rintro ⟨t, ⟨rest, ht, hblank⟩, hm⟩
  exact decode_eq_ok_iff_run.mpr
    ⟨rest, h.complete ht (delimited_of_unblank_eq_nil hblank) hm, hblank⟩

/-- Of a text that is known to spell a tree, only the tree matters. -/
theorem decode_eq_ok_iff_of_text (h : r.Reads M) {t : Tree} {text : Bytes}
    (ht : Text Lenient t text) {a : α} : decode r text = .ok a ↔ M t a := by
  rw [h.decode_eq_ok_iff]
  constructor
  · rintro ⟨t', ht', hm⟩
    rwa [← ht.unique ht']
  · exact fun hm => ⟨t, ht, hm⟩

theorem congr (h : r.Reads M) {M' : Tree → α → Prop} (hm : ∀ t a, M t a ↔ M' t a) :
    r.Reads M' where
  complete := fun ht hr hm' => h.complete ht hr ((hm _ _).mpr hm')
  sound := by
    intro s a rest hrun
    obtain ⟨t, ht, hmt⟩ := h.sound hrun
    exact ⟨t, ht, (hm t a).mp hmt⟩

theorem map (h : r.Reads M) (f : α → β) :
    Reads (r >>= fun a => pure (f a)) fun t b => ∃ a, M t a ∧ b = f a where
  complete := by
    rintro t s rest _ ht hr ⟨a, hm, rfl⟩
    rw [run_bind_of_value _ (h.complete ht hr hm), run_pure]
  sound := by
    intro s b rest hrun
    obtain ⟨a, middle, ha, hb⟩ := run_bind_eq_value_iff.mp hrun
    obtain ⟨rfl, rfl⟩ := Outcome.value.inj hb
    obtain ⟨t, ht, hm⟩ := h.sound ha
    exact ⟨t, ht, a, hm, rfl⟩

end Reads

/-! ### Values of another type -/

theorem run_wrongType_ne_value {expected : Expected} {kind : Lead} {s rest : Bytes} {a : α} :
    (wrongType expected kind).run s ≠ .value a rest := by
  intro h
  obtain ⟨_, _, _, h⟩ := run_bind_eq_value_iff.mp h
  cases h

end Reader

/-! ### Values without parts -/

/-- The tree is a number of digits only, and fits 64 bits. -/
def IsNatural (t : Tree) (n : Nat) : Prop :=
  ∃ ds, t = .number ds ∧ IsDigitRun ds ∧ Nat.ofDigitChars 10 ds 0 = n ∧ n < 2 ^ 64

theorem isWhole_of_isNumber {ds : List Char} (h : IsNumber ds) (hds : IsDigitRun ds) :
    IsWhole ds := by
  have hfigure : ∀ c ∈ ds, c ∉ ['-', '.', 'e', 'E'] := by
    intro c hc hmem
    have hnot : ∀ c ∈ ['-', '.', 'e', 'E'], ¬ IsFigure c :=
      List.all_iff_forall_prop.mp (by decide)
    exact hnot c hmem (hds.2 c hc)
  rcases isNumber_iff.mp h with ⟨whole, fraction, exponent, hw, hf, he, rfl⟩ | ⟨m, _, rfl⟩
  · have hf : fraction = [] := by
      rcases hf with rfl | ⟨ds, _, rfl⟩
      · rfl
      · exact (hfigure '.' (by simp) (by simp)).elim
    have he : exponent = [] := by
      rcases he with rfl | ⟨letter, hletter, sign, _, ds, _, rfl⟩
      · rfl
      · refine (hfigure letter (by simp) ?_).elim
        simp only [List.mem_cons, List.not_mem_nil, or_false] at hletter ⊢
        tauto
    rwa [hf, he, List.append_nil, List.append_nil]
  · exact (hfigure '-' (by simp) (by simp)).elim

/-- The tree is `null`, or one that `M` relates to the value. -/
inductive OrNull (M : Tree → α → Prop) : Tree → Option α → Prop
  | null : OrNull M .null none
  | some {t : Tree} {a : α} (h : M t a) : OrNull M t (some a)

namespace Reader

theorem reads_string : string.Reads fun t text => t = .string text where
  complete := by
    rintro t s rest text ht _ rfl
    obtain ⟨body, hbody, hs⟩ := ht.spelledAs Tree.noConfusion
    rw [List.cons_append] at hs
    rw [string, run_bind_of_value _ (run_lead_of_unblank hs)]
    exact run_text_eq_value_iff.mpr ⟨body, hbody, rfl⟩
  sound := by
    intro s text rest h
    obtain ⟨kind, middle, hlead, h⟩ := run_bind_eq_value_iff.mp h
    obtain ⟨b, m, hs, hb, rfl⟩ := run_lead_eq_value_iff.mp hlead
    rw [hs]
    cases kind with
    | string =>
      obtain rfl := Lead.eq_quote hb
      obtain ⟨body, hbody, rfl⟩ := run_text_eq_value_iff.mp h
      have hlenient : Lenient (some text) body := hbody
      exact ⟨_, .string hlenient, rfl⟩
    | _ => exact (run_wrongType_ne_value h).elim

theorem reads_nothing : nothing.Reads fun t _ => t = .null where
  complete := by
    rintro t s rest _ ht _ rfl
    have hs := ht.spelledAs Tree.noConfusion
    rw [nothing, run_bind_of_value _ (run_lead_of_unblank hs)]
    exact run_null rest
  sound := by
    intro s _ rest h
    obtain ⟨kind, middle, hlead, h⟩ := run_bind_eq_value_iff.mp h
    obtain ⟨b, m, hs, hb, rfl⟩ := run_lead_eq_value_iff.mp hlead
    rw [hs]
    cases kind with
    | null => exact ⟨.null, eq_of_run_null hb h ▸ .null, rfl⟩
    | _ => exact (run_wrongType_ne_value h).elim

theorem reads_truth : truth.Reads fun t value => t = .bool value where
  complete := by
    rintro t s rest value ht _ rfl
    have hs := ht.spelledAs Tree.noConfusion
    rw [truth]
    cases value with
    | false =>
      rw [run_bind_of_value _ (run_lead_of_unblank hs)]
      exact run_bind_of_value _ (run_bool false rest)
    | true =>
      rw [run_bind_of_value _ (run_lead_of_unblank hs)]
      exact run_bind_of_value _ (run_bool true rest)
  sound := by
    intro s value rest h
    obtain ⟨kind, middle, hlead, h⟩ := run_bind_eq_value_iff.mp h
    obtain ⟨b, m, hs, hb, rfl⟩ := run_lead_eq_value_iff.mp hlead
    rw [hs]
    cases kind with
    | bool _ =>
      obtain ⟨_, hword, rfl⟩ := exists_of_run_bind_pure h
      exact ⟨.bool value, eq_of_run_bool hb hword ▸ .bool, rfl⟩
    | _ => exact (run_wrongType_ne_value h).elim

theorem run_naturalOf_eq_value_iff {x : Number} {n : Nat} {s rest : Bytes} :
    (naturalOf x).run s = .value n rest ↔ x = .natural n ∧ rest = s := by
  cases x with
  | natural m =>
    rw [naturalOf, run_pure, Outcome.value.injEq, Number.natural.injEq]
    exact and_congr_right fun _ => eq_comm
  | negative _ => exact iff_of_false (fun h => nomatch h) fun h => nomatch h.1
  | real _ => exact iff_of_false (fun h => nomatch h) fun h => nomatch h.1

theorem reads_natural : natural.Reads IsNatural where
  complete := by
    rintro t s rest n ht hr ⟨ds, rfl, hds, rfl, hlt⟩
    obtain ⟨c, ds, rfl⟩ := List.exists_cons_of_ne_nil hds.1
    have hc := (isDigitRun_cons.mp hds).1
    obtain ⟨hnumber, hs⟩ := ht.spelledAs fun h => nomatch Tree.number.inj h
    have hrun := run_number_integer false (isWhole_of_isNumber hnumber hds) hlt hr
    rw [encode_cons_of_lt hc.lt, List.cons_append] at hs hrun
    rw [natural, run_bind_of_value _ (run_lead_of_unblank hs),
      Lead.ofByte_of_isDigit (isDigit_byte hc)]
    exact (run_bind_of_value _ hrun).trans (run_naturalOf_eq_value_iff.mpr ⟨rfl, rfl⟩)
  sound := by
    intro s n rest h
    obtain ⟨kind, middle, hlead, h⟩ := run_bind_eq_value_iff.mp h
    obtain ⟨b, m, hs, hb, rfl⟩ := run_lead_eq_value_iff.mp hlead
    rw [hs]
    cases kind with
    | digit =>
      obtain ⟨x, behind, hx, hn⟩ := run_bind_eq_value_iff.mp h
      obtain ⟨rfl, rfl⟩ := run_naturalOf_eq_value_iff.mp hn
      obtain ⟨ds, hds, hn, hlt, hm⟩ := exists_of_run_number_natural hx
      rw [hm]
      exact ⟨_, .number hds.isNumber, ds, rfl, hds.1, hn, hlt⟩
    | minus =>
      obtain ⟨_, _, _, h⟩ := run_bind_eq_value_iff.mp h
      obtain ⟨x, behind, hx, hn⟩ := run_bind_eq_value_iff.mp h
      obtain ⟨rfl, rfl⟩ := run_naturalOf_eq_value_iff.mp hn
      exact (run_number_minus_ne_natural hx).elim
    | _ => exact (run_wrongType_ne_value h).elim

/-- A value that may be missing is read from `null` as missing, if `null` is no value itself. -/
theorem Reads.optional {r : Reader α} {M : Tree → α → Prop} (h : r.Reads M)
    (hnull : ∀ a, ¬ M .null a) : (optional r).Reads (OrNull M) where
  complete := by
    intro t s rest a? ht hr hm
    cases hm with
    | null =>
      have hs := ht.spelledAs Tree.noConfusion
      rw [Reader.optional, run_bind_of_value _ (run_blanks_of_unblank hs)]
      exact (run_bind_of_value _ (run_null rest))
    | @some _ a hm =>
      obtain ⟨b, m, hs, hp⟩ := ht.production
      have hne : Lead.ofByte b ≠ .null := by
        intro hb
        rw [hb] at hp
        exact hnull a (hp.1 ▸ hm)
      have hblank : unblank (b :: m) = b :: m := by rw [← hs, unblank_unblank]
      have hrun : r.run (b :: m) = .value a rest := h.complete (hblank.symm ▸ hs ▸ ht) hr hm
      rw [Reader.optional, run_bind_of_value _ (run_blanks_of_unblank hs)]
      dsimp only
      rw [if_neg hne, run_bind_of_value _ hrun]
      rfl
  sound := by
    intro s a? rest hrun
    rw [Reader.optional, run_bind_of_value _ (run_blanks s)] at hrun
    cases hs : unblank s with
    | nil =>
      rw [hs] at hrun
      obtain ⟨a, ha, rfl⟩ := exists_of_run_bind_pure hrun
      obtain ⟨t, ht, hm⟩ := h.sound ha
      exact ⟨t, ht, .some hm⟩
    | cons b m =>
      rw [hs] at hrun
      dsimp only [List.head?_cons] at hrun
      split at hrun
      · next hb =>
        obtain ⟨_, hword, rfl⟩ := exists_of_run_bind_pure hrun
        exact ⟨.null, eq_of_run_null hb hword ▸ .null, .null⟩
      · obtain ⟨a, ha, rfl⟩ := exists_of_run_bind_pure hrun
        obtain ⟨t, ht, hm⟩ := h.sound ha
        rw [← hs, unblank_unblank, hs] at ht
        exact ⟨t, ht, .some hm⟩

end Reader

end ListingSnapshot.Json
