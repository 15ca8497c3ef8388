/-
Why a search has no answer.

A query is checked before any record is looked at, and scoring a record
makes some of the same checks again. `Corpus.Refuses` says what comes of
this without any of the checks: which faults there are, and which of two
wins. Neither the number of neighbors that were asked for nor the ranking
occurs in it.

`search_refuses` says that a search fails with exactly these faults. In
particular the only thing that can be wrong with a record is a norm of
zero: it has the right number of components because it is in the corpus,
and the query was found to have a norm before.

# The norm

Nothing here depends on how the norm of a vector is computed, nor on
whether it is a number. So all is shown for any `measure` in its place
(`similarityBy`, `Corpus.admitBy?`, `Corpus.searchBy`), and the search
itself is the one by the Euclidean norm (`searchBy_norm`).
-/
import KnnOracle.Proofs.Corpus.Making

namespace KnnOracle

-- ======================================================== any measure

section measured

variable (measure : List Float → Float)

/-- The cosine, with any measure for the norm. -/
def similarityBy (a b : List Float) : Except Fault Float :=
  if a.length ≠ b.length then .error (.dimensionMismatch a.length b.length)
  else if measure a == 0.0 then .error (.degenerate .left)
  else if measure b == 0.0 then .error (.degenerate .right)
  else .ok (dot a b / (measure a * measure b))

/-- Scores two vectors by the cosine under a measure. -/
def cosineBy : Scoring :=
  fun a b => (similarityBy measure a b).map Score.ofFloat

namespace Corpus

/-- Refuses what cannot be a query under a measure. -/
def admitBy? (c : Corpus) (query : Record) : Except Fault Unit :=
  match query.firstNonFinite? with
  | some index => .error (.nonFinite query.id index)
  | none =>
      if !c.isEmpty && query.dimension != c.dimension then
        .error (.atRecord query.id
          (.dimensionMismatch c.dimension query.dimension))
      else if measure query.values == 0.0 then
        .error (.atRecord query.id (.degenerate .left))
      else .ok ()

/-- The `k` nearest neighbors of a query under a measure. -/
def searchBy (c : Corpus) (query : Record) (k : Nat) :
    Except Fault (List Neighbor) :=
  match c.admitBy? measure query with
  | .error e => .error e
  | .ok () =>
      match scoreAll (cosineBy measure) query.values c.records with
      | .error e => .error e
      | .ok scored => .ok ((Neighbor.rank scored).take k)

end Corpus

end measured

-- ---------------------------------------------------- the Euclidean norm

private theorem cosineBy_norm : cosineBy norm = cosine := rfl

namespace Corpus

private theorem admitBy?_norm (c : Corpus) (query : Record) :
    c.admitBy? norm query = c.admit? query :=
  rfl

/-- A search goes by the Euclidean norm. What is shown for any norm holds of
the program by this, and no property of the norm is needed on the way. -/
theorem searchBy_norm (c : Corpus) (query : Record) (k : Nat) :
    c.searchBy norm query k = c.search query k := by
  unfold searchBy search searchWith rankingWith
  rw [admitBy?_norm, cosineBy_norm]
  cases c.admit? query with
  | error e => rfl
  | ok _ =>
      cases scoreAll cosine query.values c.records with
      | error e => rfl
      | ok scored => rfl

-- ======================================================== the refusals

/-- A query to which a search in the corpus can have an answer: its
components are numbers, as many as the records have if there are records. -/
structure Fits (c : Corpus) (query : Record) : Prop where
  finite : ∀ v ∈ query.values, v.isFinite = true
  length : c.records ≠ [] → query.values.length = c.dimension

/-- Why a search in the corpus has no answer. -/
inductive Refuses (measure : List Float → Float) (c : Corpus)
    (query : Record) : Fault → Prop where
  /-- The first component that is no number, whatever else is wrong. -/
  | component (index : Nat) (v : Float)
      (hindex : query.values[index]? = some v)
      (hbad : v.isFinite = false)
      (hfirst : ∀ u ∈ query.values.take index, u.isFinite = true) :
      Refuses measure c query (.nonFinite query.id index)
  | length (hfinite : ∀ v ∈ query.values, v.isFinite = true)
      (hrecords : c.records ≠ [])
      (hlength : query.values.length ≠ c.dimension) :
      Refuses measure c query
        (.atRecord query.id
          (.dimensionMismatch c.dimension query.values.length))
  /-- The query has no direction, whether or not there are records. -/
  | query (hfits : c.Fits query)
      (hzero : (measure query.values == 0.0) = true) :
      Refuses measure c query (.atRecord query.id (.degenerate .left))
  /-- The first record that has no direction, however far from the query
  it would have ranked. -/
  | record (hfits : c.Fits query)
      (hquery : (measure query.values == 0.0) = false)
      (before after : List Record) (r : Record)
      (hrecords : c.records = before ++ r :: after)
      (hbefore : ∀ x ∈ before, (measure x.values == 0.0) = false)
      (hzero : (measure r.values == 0.0) = true) :
      Refuses measure c query (.atRecord r.id (.degenerate .right))

variable {measure : List Float → Float} {c : Corpus} {query : Record}

-- ------------------------------------------------------------- the query

/-- The first component that is not finite, in the form in which a refusal
describes it. -/
private theorem firstNonFinite?_eq_some_iff_take {r : Record} {index : Nat} :
    r.firstNonFinite? = some index ↔
      ∃ v, r.values[index]? = some v ∧ v.isFinite = false ∧
        ∀ u ∈ r.values.take index, u.isFinite = true := by
  rw [firstNonFinite?_eq_some_iff]
  constructor
  · rintro ⟨hindex, hbad, hfirst⟩
    refine ⟨r.values[index], List.getElem?_eq_getElem hindex, hbad,
      fun u hu => ?_⟩
    obtain ⟨i, hi, rfl⟩ := List.mem_take_iff_getElem.mp hu
    exact hfirst i (Nat.lt_of_lt_of_le hi (Nat.min_le_left _ _))
  · rintro ⟨v, hv, hbad, hfirst⟩
    obtain ⟨hindex, rfl⟩ := List.getElem?_eq_some_iff.mp hv
    refine ⟨hindex, hbad, fun i hi => hfirst _ ?_⟩
    exact List.mem_take_iff_getElem.mpr
      ⟨i, Nat.lt_min.mpr ⟨hi, hi.trans hindex⟩, rfl⟩

private theorem fits_iff : c.Fits query ↔
    query.firstNonFinite? = none ∧
      (!c.isEmpty && query.dimension != c.dimension) = false := by
  rw [firstNonFinite?_eq_none_iff, Bool.and_eq_false_iff, Bool.not_eq_false',
    bne_eq_false_iff_eq, isEmpty, List.isEmpty_iff]
  constructor
  · intro h
    refine ⟨h.finite, ?_⟩
    by_cases hrecords : c.records = []
    · exact .inl hrecords
    · exact .inr (h.length hrecords)
  · rintro ⟨hfinite, hlength⟩
    exact ⟨hfinite, fun hrecords => hlength.resolve_left hrecords⟩

/-- A query is admitted if it fits and has a direction. A refused one is never
scored, so these reasons come first. -/
theorem admitBy?_eq_ok_iff :
    c.admitBy? measure query = .ok () ↔
      c.Fits query ∧ (measure query.values == 0.0) = false := by
  rw [fits_iff, admitBy?]
  cases query.firstNonFinite? with
  | some index => simp
  | none =>
      cases hlength : !c.isEmpty && query.dimension != c.dimension with
      | true => simp
      | false => cases hzero : measure query.values == 0.0 <;> simp

-- ------------------------------------------------------------ the records

/-- Scoring ends at the first record that cannot be scored. The records before
it have scores, which are thrown away. -/
theorem scoreAll_eq_error_iff {scoring : Scoring} {vector : List Float}
    {records : List Record} {fault : Fault} :
    scoreAll scoring vector records = .error fault ↔
      ∃ before r after cause, records = before ++ r :: after ∧
        (∀ x ∈ before, ∃ s, scoring vector x.values = .ok s) ∧
        scoring vector r.values = .error cause ∧
        fault = .atRecord r.id cause := by
  induction records with
  | nil =>
      constructor
      · intro h
        cases h
      · rintro ⟨before, r, after, cause, hrecords, -⟩
        exact absurd hrecords (by simp)
  | cons first rest ih =>
      rw [scoreAll, Record.scoreWith]
      cases hfirst : scoring vector first.values with
      | error cause =>
          constructor
          · intro h
            cases h
            exact ⟨[], first, rest, cause, rfl, List.forall_mem_nil _,
              hfirst, rfl⟩
          · rintro ⟨before, r, after, cause', hrecords, hbefore, hr, rfl⟩
            cases before with
            | nil =>
                cases hrecords
                rw [hfirst] at hr
                cases hr
                rfl
            | cons head before =>
                cases hrecords
                obtain ⟨s, hs⟩ := hbefore first (List.mem_cons_self ..)
                rw [hfirst] at hs
                cases hs
      | ok s =>
          have hrest :
              (∃ before r after cause, first :: rest = before ++ r :: after ∧
                (∀ x ∈ before, ∃ s, scoring vector x.values = .ok s) ∧
                scoring vector r.values = .error cause ∧
                fault = .atRecord r.id cause) ↔
              scoreAll scoring vector rest = .error fault := by
            rw [ih]
            constructor
            · rintro ⟨before, r, after, cause, hrecords, hbefore, hr, hfault⟩
              cases before with
              | nil =>
                  cases hrecords
                  rw [hfirst] at hr
                  cases hr
              | cons head before =>
                  cases hrecords
                  exact ⟨before, r, after, cause, rfl,
                    fun x hx => hbefore x (List.mem_cons_of_mem _ hx),
                      hr, hfault⟩
            · rintro ⟨before, r, after, cause, rfl, hbefore, hr, hfault⟩
              exact ⟨first :: before, r, after, cause, rfl,
                List.forall_mem_cons.mpr ⟨⟨s, hfirst⟩, hbefore⟩, hr, hfault⟩
          rw [hrest]
          cases scoreAll scoring vector rest <;> simp

/-- A query that fits has as many components as each record, so the scores
cannot fail for their lengths. -/
private theorem Fits.length_of_mem (h : c.Fits query) {r : Record}
    (hr : r ∈ c.records) :
    query.values.length = r.values.length :=
  (h.length (List.ne_nil_of_mem hr)).trans (c.dimension_eq r hr).symm

/-- Behind the checks of the query a record of the corpus is refused for its
norm alone. Lengths agree by then, and the query has a direction. -/
theorem similarityBy_eq_error_iff (hfits : c.Fits query)
    (hquery : (measure query.values == 0.0) = false) {r : Record}
    (hr : r ∈ c.records) {cause : Fault} :
    similarityBy measure query.values r.values = .error cause ↔
      (measure r.values == 0.0) = true ∧ cause = .degenerate .right := by
  rw [similarityBy, if_neg (not_not_intro (hfits.length_of_mem hr)), hquery,
    if_neg Bool.false_ne_true]
  cases measure r.values == 0.0 with
  | true => simp [eq_comm]
  | false => simp

/-- All that can then go wrong with a record is that its own norm is zero. -/
private theorem cosineBy_eq_error_iff (hfits : c.Fits query)
    (hquery : (measure query.values == 0.0) = false) {r : Record}
    (hr : r ∈ c.records) {cause : Fault} :
    cosineBy measure query.values r.values = .error cause ↔
      (measure r.values == 0.0) = true ∧ cause = .degenerate .right := by
  rw [← similarityBy_eq_error_iff hfits hquery hr, cosineBy]
  cases similarityBy measure query.values r.values <;> simp [Except.map]

/-- A record of the corpus that has a direction has a score, as long as the
query was admitted. -/
theorem exists_cosineBy (hfits : c.Fits query)
    (hquery : (measure query.values == 0.0) = false) {r : Record}
    (hr : r ∈ c.records) (hrecord : (measure r.values == 0.0) = false) :
    ∃ s, cosineBy measure query.values r.values = .ok s := by
  cases hscore : cosineBy measure query.values r.values with
  | ok s => exact ⟨s, rfl⟩
  | error cause =>
      have hzero := ((cosineBy_eq_error_iff hfits hquery hr).mp hscore).1
      rw [hrecord] at hzero
      cases hzero

-- ==================================================== the main statement

/-- What a search refuses it refuses, however many neighbors were asked for:
scoring comes before the cut. -/
theorem searchBy_of_refuses {fault : Fault} (h : c.Refuses measure query fault)
    (k : Nat) :
    c.searchBy measure query k = .error fault := by
  unfold searchBy
  cases h with
  | component index v hindex hbad hfirst =>
      rw [admitBy?, firstNonFinite?_eq_some_iff_take.mpr
        ⟨v, hindex, hbad, hfirst⟩]
  | length hfinite hrecords hlength =>
      have hmismatch : (!c.isEmpty && query.dimension != c.dimension)
          = true := by
        simp [isEmpty, hrecords, Record.dimension, hlength]
      rw [admitBy?, firstNonFinite?_eq_none_iff.mpr hfinite]
      dsimp only
      rw [if_pos hmismatch]
      rfl
  | query hfits hzero =>
      obtain ⟨hfinite, hlength⟩ := fits_iff.mp hfits
      rw [admitBy?, hfinite]
      dsimp only
      rw [hlength, if_neg Bool.false_ne_true, if_pos hzero]
  | record hfits hquery before after r hrecords hbefore hzero =>
      have hmem : ∀ x, x ∈ before ∨ x = r → x ∈ c.records := by
        intro x hx
        rw [hrecords, List.mem_append, List.mem_cons]
        exact hx.imp_right .inl
      have hscore : scoreAll (cosineBy measure) query.values c.records
          = .error (.atRecord r.id (.degenerate .right)) :=
        scoreAll_eq_error_iff.mpr
          ⟨before, r, after, .degenerate .right, hrecords,
          fun x hx => exists_cosineBy hfits hquery (hmem x (.inl hx))
            (hbefore x hx),
          (cosineBy_eq_error_iff hfits hquery (hmem r (.inr rfl))).mpr
            ⟨hzero, rfl⟩, rfl⟩
      rw [admitBy?_eq_ok_iff.mpr ⟨hfits, hquery⟩]
      dsimp only
      rw [hscore]

/-- All that a search needs: a query that fits, and norms that are not
zero. -/
structure Admits (measure : List Float → Float) (c : Corpus) (query : Record) :
    Prop where
  fits : c.Fits query
  query : (measure query.values == 0.0) = false
  records : ∀ r ∈ c.records, (measure r.values == 0.0) = false

/-- Where none of the reasons holds there is an answer, whatever number of
neighbors is asked for. -/
private theorem Admits.exists_answer (h : c.Admits measure query) (k : Nat) :
    ∃ answer, c.searchBy measure query k = .ok answer := by
  unfold searchBy
  rw [admitBy?_eq_ok_iff.mpr ⟨h.fits, h.query⟩]
  cases hscore : scoreAll (cosineBy measure) query.values c.records with
  | ok scored => exact ⟨_, rfl⟩
  | error fault =>
      obtain ⟨before, r, after, cause, hrecords, -, hr, -⟩ :=
        scoreAll_eq_error_iff.mp hscore
      have hmem : r ∈ c.records := by
        rw [hrecords]
        simp
      obtain ⟨s, hs⟩ := exists_cosineBy h.fits h.query hmem (h.records r hmem)
      rw [hs] at hr
      cases hr

/-- Nothing is missing, or there is something to refuse. With this, each
implication about refusals becomes an equivalence. -/
theorem admits_or_refuses (measure : List Float → Float) (c : Corpus)
    (query : Record) :
    c.Admits measure query ∨ ∃ fault, c.Refuses measure query fault := by
  cases hfinite : query.firstNonFinite? with
  | some index =>
      obtain ⟨v, hindex, hbad, hfirst⟩ :=
        firstNonFinite?_eq_some_iff_take.mp hfinite
      exact .inr ⟨_, .component index v hindex hbad hfirst⟩
  | none =>
      rw [firstNonFinite?_eq_none_iff] at hfinite
      by_cases hlength : c.records ≠ [] → query.values.length = c.dimension
      · have hfits : c.Fits query := ⟨hfinite, hlength⟩
        cases hquery : measure query.values == 0.0 with
        | true => exact .inr ⟨_, .query hfits hquery⟩
        | false =>
            -- the first record of norm zero, if there is one
            cases hfind : c.records.find? fun r => measure r.values == 0.0 with
            | none =>
                refine .inl ⟨hfits, hquery, fun r hr => ?_⟩
                exact Bool.not_eq_true _ ▸ List.find?_eq_none.mp hfind r hr
            | some r =>
                obtain ⟨hzero, before, after, hrecords, hbefore⟩ :=
                  List.find?_eq_some_iff_append.mp hfind
                exact .inr ⟨_, .record hfits hquery before after r hrecords
                  (fun x hx => by simpa using hbefore x hx) hzero⟩
      · rw [Classical.not_imp] at hlength
        exact .inr ⟨_, .length hfinite hlength.1 hlength.2⟩

/-- The reasons in their order are the reasons that the search gives. -/
private theorem searchBy_eq_error_iff {fault : Fault} {k : Nat} :
    c.searchBy measure query k = .error fault ↔
      c.Refuses measure query fault := by
  refine ⟨fun hsearch => ?_, fun h => searchBy_of_refuses h k⟩
  rcases admits_or_refuses measure c query with hadmits | ⟨other, hrefuses⟩
  · obtain ⟨answer, hanswer⟩ := hadmits.exists_answer k
    rw [hanswer] at hsearch
    cases hsearch
  · rw [searchBy_of_refuses hrefuses k] at hsearch
    cases hsearch
    exact hrefuses

/-- To succeed is to have none of the reasons against it. This is what keeps
other errors out. -/
private theorem exists_searchBy_iff {k : Nat} :
    (∃ answer, c.searchBy measure query k = .ok answer) ↔
      c.Admits measure query := by
  refine ⟨fun ⟨answer, hanswer⟩ => ?_, fun h => h.exists_answer k⟩
  rcases admits_or_refuses measure c query with hadmits | ⟨fault, hrefuses⟩
  · exact hadmits
  · rw [searchBy_of_refuses hrefuses k] at hanswer
    cases hanswer

/-- There are four kinds of reasons, so no other error of the oracle ever comes
out of a search. -/
theorem Refuses.kinds {fault : Fault} (h : c.Refuses measure query fault) :
    (∃ index, fault = .nonFinite query.id index) ∨
    fault = .atRecord query.id
      (.dimensionMismatch c.dimension query.values.length) ∨
    fault = .atRecord query.id (.degenerate .left) ∨
    ∃ r ∈ c.records, fault = .atRecord r.id (.degenerate .right) := by
  cases h with
  | component index v hindex hbad hfirst => exact .inl ⟨index, rfl⟩
  | length hfinite hrecords hlength => exact .inr (.inl rfl)
  | query hfits hzero => exact .inr (.inr (.inl rfl))
  | record hfits hquery before after r hrecords hbefore hzero =>
      refine .inr (.inr (.inr ⟨r, ?_, rfl⟩))
      rw [hrecords]
      simp

/-- When a search has no answer, and why. -/
structure Reasons (measure : List Float → Float) (c : Corpus) (query : Record)
    (k : Nat) : Prop where
  /-- It fails for the reasons that there are, and no others. -/
  refused : ∀ fault, c.searchBy measure query k = .error fault ↔
    c.Refuses measure query fault
  /-- Otherwise it has an answer. -/
  answered : (∃ answer, c.searchBy measure query k = .ok answer) ↔
    c.Admits measure query
  /-- So there are four kinds of reasons, and all but the last are about
  the query. -/
  kinds : ∀ fault, c.searchBy measure query k = .error fault →
    (∃ index, fault = .nonFinite query.id index) ∨
    fault = .atRecord query.id
      (.dimensionMismatch c.dimension query.values.length) ∨
    fault = .atRecord query.id (.degenerate .left) ∨
    ∃ r ∈ c.records, fault = .atRecord r.id (.degenerate .right)
  /-- Once the query was admitted, nothing is found in a record but a norm
  of zero. -/
  blamed : c.admitBy? measure query = .ok () → ∀ r ∈ c.records, ∀ cause,
    similarityBy measure query.values r.values = .error cause ↔
      (measure r.values == 0.0) = true ∧ cause = .degenerate .right

/-- A search fails exactly for the reasons that there are, whatever the
measure is, and it is the search by the Euclidean norm. -/
theorem search_refuses (c : Corpus) (query : Record) (k : Nat) :
    (∀ measure, c.Reasons measure query k) ∧
      c.search query k = c.searchBy norm query k := by
  refine ⟨fun measure => ?_, (searchBy_norm c query k).symm⟩
  constructor
  case refused => exact fun fault => searchBy_eq_error_iff
  case answered => exact exists_searchBy_iff
  case kinds =>
    exact fun fault hsearch => (searchBy_eq_error_iff.mp hsearch).kinds
  case blamed =>
    intro hadmit r hr cause
    obtain ⟨hfits, hquery⟩ := admitBy?_eq_ok_iff.mp hadmit
    exact similarityBy_eq_error_iff hfits hquery hr

end Corpus

end KnnOracle
