/-
What a service finds.

A service scores and ranks on its own, without looking at the query first
and with a bias that it adds to every score. Without a bias it answers
with the oracle's ranking all the same (`search_mirrors`), as far as the
oracle has one: the oracle may refuse where the service does not, but not
the other way round. Adding zero to a score changes nothing but the
negative zero, so no score may be that.

A service that is told to leave out a rank leaves out that entry of the
ranking, and what ranks behind moves up by one. A comparison then misses
the one id, and finds one that is surplus if a record was left to move up.
-/
import KnnOracle.Proofs.Service.Requests
import KnnOracle.Proofs.Validation.Judging

namespace KnnOracle

open Service

-- =============================================================== the scores

/-- Adding zero changes nothing but the negative zero, which the scores here
are assumed not to be. -/
theorem Neighbor.addZero_eq_self {n : Neighbor} (h : n.score ≠ .ofFloat (-0.0))
    (hnumber : Score.ofFloat n.score.toFloat = n.score) : n.addZero = n := by
  have hne : n.score.toFloat ≠ -0.0 := fun heq => h (by rw [← hnumber, heq])
  rw [addZero, add_zero_eq, if_neg hne, hnumber]

/-- No record has the negative zero for its score. -/
def Unsigned (query : List Float) (records : List Record) : Prop :=
  ∀ r ∈ records, cosine query r.values ≠ .ok (.ofFloat (-0.0))

/-- What the oracle scores a service without a bias scores alike. Both fold
over the records in their order. -/
theorem scoreRecords_of_scoreAll {query : List Float} {records : List Record}
    {scored : List Neighbor} (h : scoreAll cosine query records = .ok scored)
    (hunsigned : Unsigned query records) :
    scoreRecords 0.0 query records = .ok scored := by
  obtain ⟨hscores, rfl⟩ := eq_map_neighbor h
  rw [scoreRecords_eq_ok hscores]
  refine congrArg Except.ok (List.map_congr_left fun r hr => ?_)
  refine Neighbor.addZero_eq_self ?_ (ofFloat_toFloat_neighbor query r)
  obtain ⟨x, hx⟩ := hscores r hr
  intro hzero
  apply hunsigned r hr
  rw [Record.neighbor, hx] at hzero
  rw [cosine, hx]
  exact congrArg Except.ok hzero

/-- What a service cannot score the oracle cannot score. -/
theorem exists_error_of_scoreRecords {query : List Float}
    {records : List Record} {e : Fault}
    (h : scoreRecords 0.0 query records = .error e) :
    ∃ fault, scoreAll cosine query records = .error fault := by
  cases hscored : scoreAll cosine query records with
  | error fault => exact ⟨fault, rfl⟩
  | ok scored =>
      rw [scoreRecords_eq_ok (eq_map_neighbor hscored).1] at h
      cases h

-- ============================================================== leaving out

section leaving

variable {α : Type} {rank k : Nat}

/-- A list without what stands at a rank, if something stands there. -/
def without (rank? : Option Nat) (list : List α) : List α :=
  match rank? with
  | none => list
  | some rank => list.take rank ++ list.drop (rank + 1)

/-- The service drops the same position as the oracle's mirror of it. -/
private theorem dropAt_eq_without (rank? : Option Nat) (list : List α) :
    dropAt rank? list = without rank? list := by
  cases rank? with
  | none => rfl
  | some rank => exact List.eraseIdx_eq_take_drop_succ list rank

/-- A list without a rank, cut: what stands in front of the rank, and one
entry more from behind it than before. -/
theorem exists_split_at_rank {list : List α} (hk : rank < k)
    (hlength : rank < list.length) :
    ∃ front back, list.take k = front ++ list[rank] :: back ∧
      (without (some rank) list).take k
        = front ++ back ++ list[k]?.toList := by
  obtain ⟨j, rfl⟩ : ∃ j, k = rank + 1 + j := ⟨k - rank - 1, by omega⟩
  refine ⟨list.take rank, (list.drop (rank + 1)).take j, ?_, ?_⟩
  · rw [List.take_add, List.take_add_one, List.getElem?_eq_getElem hlength,
      List.append_assoc]
    rfl
  · have hfront : (list.take rank).length = rank :=
      List.length_take_of_le (Nat.le_of_lt hlength)
    have hroom : rank + 1 + j - rank = j + 1 := by omega
    rw [without, List.take_append, hfront, hroom,
      List.take_of_length_le (by omega), List.take_add_one, List.getElem?_drop,
      List.append_assoc]

/-- Where nothing repeats, one entry is missing and the rest is surplus. -/
theorem filter_notMem_of_split [DecidableEq α] {front back rest : List α}
    {x : α} (h : (front ++ x :: back ++ rest).Nodup) :
    ((front ++ x :: back).filter fun y => y ∉ front ++ back ++ rest) = [x] ∧
    ((front ++ back ++ rest).filter fun y => y ∉ front ++ x :: back)
      = rest := by
  rw [List.append_assoc, List.nodup_append, List.cons_append, List.nodup_cons,
    List.nodup_append] at h
  obtain ⟨-, ⟨hx, -, -, hbehind⟩, hfront⟩ := h
  rw [List.mem_append, not_or] at hx
  have hxfront : x ∉ front :=
    fun hmem => hfront x hmem x (List.mem_cons_self ..) rfl
  constructor
  · rw [List.filter_append, List.filter_cons_of_pos,
      List.filter_eq_nil_iff.mpr, List.filter_eq_nil_iff.mpr, List.nil_append]
    · intro y hy
      simp [hy]
    · intro y hy
      simp [hy]
    · simp [hxfront, hx.1, hx.2]
  · rw [List.filter_append, List.filter_eq_nil_iff.mpr,
      List.filter_eq_self.mpr, List.nil_append]
    · intro y hy
      have hyfront : y ∉ front := fun hmem =>
        hfront y hmem y (List.mem_cons_of_mem _ (List.mem_append_right _ hy))
          rfl
      have hyx : y ≠ x := fun heq => hx.2 (heq ▸ hy)
      have hyback : y ∉ back := fun hmem => hbehind y hmem y hy rfl
      simp [hyfront, hyx, hyback]
    · intro y hy
      rw [decide_eq_true_eq, not_not, List.mem_append, List.mem_cons]
      exact (List.mem_append.mp hy).imp_right .inr

end leaving

-- =============================================================== searching

section searching

variable {o : Options} {s : State} {name : String} {collection : Collection}
  {c : Corpus}
  {query : Record} {k? : Option Nat}

/-- A service without a bias scores the records, or is kept from it by one of
them. -/
theorem step_search_of_scored {scored : List Neighbor}
    (hbias : o.scoreBias = 0.0)
    (hcollection : s.collections.get? name = some collection)
    (hscored : scoreRecords 0.0 query.values collection.committed
      = .ok scored) :
    step o s (.search ⟨name, query.values, k?⟩)
      = (.ok ((dropAt o.dropRank (Neighbor.rank scored)).take
        (k?.getD defaultK)), s) := by
  show search o s _ = _
  unfold search
  rw [hcollection, hbias]
  dsimp only
  rw [hscored]

/-- A search that is refused although its collection is there was refused by
the scoring, with a fault of the records or the query. -/
private theorem scoreRecords_of_step_search {e : Refusal}
    (hbias : o.scoreBias = 0.0)
    (hcollection : s.collections.get? name = some collection)
    (h : (step o s (.search ⟨name, query.values, k?⟩)).1 = .error e) :
    e.status = 400 ∧ ∃ fault,
      scoreRecords 0.0 query.values collection.committed = .error fault := by
  cases hscored : scoreRecords 0.0 query.values collection.committed with
  | ok scored =>
      rw [step_search_of_scored hbias hcollection hscored] at h
      cases h
  | error fault =>
      refine ⟨?_, fault, rfl⟩
      have hsearch : step o s (.search ⟨name, query.values, k?⟩)
          = (.error ⟨400, fault.message⟩, s) := by
        show search o s _ = _
        unfold search
        rw [hcollection, hbias]
        dsimp only
        rw [hscored]
      rw [hsearch] at h
      cases h
      rfl

/-- A service finds these neighbors, and tells those who ask it with a
message. -/
def Finds (o : Options) (s : State) (request : SearchRequest)
    (found : List Neighbor) : Prop :=
  step o s (.search request) = (.ok found, s) ∧
  ∀ message, callIn? o message = some (.search request) →
    serve o message s
      = (⟨200, (SearchAnswer.ofNeighbors found).toJson.render⟩, s)

private theorem finds_of_step {request : SearchRequest} {found : List Neighbor}
    (h : step o s (.search request) = (.ok found, s)) :
    Finds o s request found := by
  refine ⟨h, fun message hcall => ?_⟩
  rw [serve_of_some s hcall, h]
  rfl

/-- What the oracle ranks a service finds, without the rank that it is to leave
out. -/
theorem finds_of_search {answer : List Neighbor} (hbias : o.scoreBias = 0.0)
    (hcollection : s.collections.get? name = some collection)
    (hrecords : c.records = collection.committed)
    (hunsigned : Unsigned query.values c.records)
    (hsearch : c.search query (k?.getD defaultK) = .ok answer) :
    ∃ ranking, c.search query c.size = .ok ranking ∧ ranking.length = c.size ∧
      (ranking.map Neighbor.id).Nodup ∧
      answer = ranking.take (k?.getD defaultK) ∧
      Finds o s ⟨name, query.values, k?⟩
        ((without o.dropRank ranking).take (k?.getD defaultK)) := by
  obtain ⟨scored, hscored, rfl, hall⟩ := Corpus.searchWith_eq_ok hsearch
  have hlength : (Neighbor.rank scored).length = c.size := by
    rw [(Neighbor.rank_perm scored).length_eq, (eq_map_neighbor hscored).2,
      List.length_map]
    rfl
  refine ⟨Neighbor.rank scored, ?_, hlength, ?_, rfl, finds_of_step ?_⟩
  · have hwhole := hall c.size
    rwa [List.take_of_length_le (Nat.le_of_eq hlength)] at hwhole
  · exact nodup_rank_of_scoreAll hscored
  · rw [← dropAt_eq_without]
    refine step_search_of_scored hbias hcollection ?_
    rw [← hrecords]
    exact scoreRecords_of_scoreAll hscored hunsigned

/-- Where an entry was left out in front of the cut, its id is missed, and
the one that moved up is surplus. -/
theorem compare_without {comparator : Comparator} {ranking : List Neighbor}
    {rank k : Nat} (htolerance : comparator.HasTolerance)
    (hrecall : comparator.HasRecall) (hnodup : (ranking.map Neighbor.id).Nodup)
    (hk : rank < k) (hlength : rank < ranking.length) :
    ∃ report,
      comparator.compare (ranking.take k)
        ((without (some rank) ranking).take k) = .ok report ∧
      report.falseNegatives = [ranking[rank].id] ∧
      report.falsePositives = ranking[k]?.toList.map Neighbor.id := by
  obtain ⟨front, back, hexpected, hfound⟩ := exists_split_at_rank hk hlength
  obtain ⟨report, hcompare, hr⟩ :=
    Comparator.exists_judges htolerance hrecall (ranking.take k)
    ((without (some rank) ranking).take k)
  have hfront : (front ++ ranking[rank] :: back ++ ranking[k]?.toList).Sublist
      ranking := by
    rw [← hexpected, ← List.take_add_one]
    exact List.take_sublist (k + 1) ranking
  have hids := hnodup.sublist (hfront.map Neighbor.id)
  have htruth := hnodup.sublist ((List.take_sublist k ranking).map Neighbor.id)
  rw [hexpected] at htruth
  have hnamed :
      ((front ++ back ++ ranking[k]?.toList).map Neighbor.id).Nodup := by
    refine hids.sublist (List.Sublist.map Neighbor.id ?_)
    exact ((List.Sublist.refl front).append
      (List.sublist_cons_self _ back)).append_right _
  simp only [List.map_append, List.map_cons] at hids
  obtain ⟨hmissed, hsurplus⟩ := filter_notMem_of_split hids
  refine ⟨report, hcompare, ?_, ?_⟩
  · rw [hr.falseNegatives_eq, hexpected, hfound, distinctIds_of_nodup htruth]
    simp only [List.map_append, List.map_cons]
    exact hmissed
  · rw [hr.falsePositives_eq, hexpected, hfound, distinctIds_of_nodup hnamed]
    simp only [List.map_append, List.map_cons]
    exact hsurplus

-- ==================================================== the main statement

/-- The searches of a service beside those of the oracle, for a query and
as many neighbors as are asked for. -/
structure Mirrors (o : Options) (s : State) (name : String) (c : Corpus)
    (query : Record) (k? : Option Nat) : Prop where
  /-- Where the oracle has an answer, the service finds the oracle's
  ranking, without the rank that it is to leave out. -/
  answered : ∀ answer, c.search query (k?.getD defaultK) = .ok answer →
    ∃ ranking, c.search query c.size = .ok ranking ∧ ranking.length = c.size ∧
      Finds o s ⟨name, query.values, k?⟩
        ((without o.dropRank ranking).take (k?.getD defaultK))
  /-- If it leaves nothing out, it finds the oracle's answer itself. -/
  faithful : o.dropRank = none →
    ∀ answer, c.search query (k?.getD defaultK) = .ok answer →
    Finds o s ⟨name, query.values, k?⟩ answer
  /-- What the service refuses the oracle refuses, whatever it is asked for. -/
  refused : ∀ e, (step o s (.search ⟨name, query.values, k?⟩)).1 = .error e →
    e.status = 400 ∧ ∀ k, ∃ fault, c.search query k = .error fault
  /-- So it is with a message that asks for the search. -/
  turnedAway : ∀ message, callIn? o message
    = some (.search ⟨name, query.values, k?⟩) →
    (serve o message s).1.status = 400 →
    ∀ k, ∃ fault, c.search query k = .error fault
  /-- Of a rank that is left out in front of the cut the comparison misses
  the one id, and the one that moved up is surplus, if there is one. -/
  missed : ∀ rank, o.dropRank = some rank →
    rank < min (k?.getD defaultK) c.size →
    ∀ answer, c.search query (k?.getD defaultK) = .ok answer →
    ∀ comparator : Comparator, comparator.HasTolerance → comparator.HasRecall →
    ∃ found report, Finds o s ⟨name, query.values, k?⟩ found ∧
      comparator.compare answer found = .ok report ∧
      report.falseNegatives = (answer[rank]?.map Neighbor.id).toList ∧
      report.falseNegatives.length = 1 ∧
      report.falsePositives.length = if k?.getD defaultK < c.size then 1 else 0

/-- A service without a bias that holds a corpus searches as the oracle
does, in whatever state it is and whatever rank it leaves out, as long as
no record has the negative zero for its score. -/
theorem search_mirrors {dimension : Nat} (hbias : o.scoreBias = 0.0)
    (hcollection : s.collections.get? name = some collection)
    (hcorpus : Corpus.make? dimension collection.committed = .ok c)
    (hunsigned : Unsigned query.values c.records) :
    Mirrors o s name c query k? := by
  have hrecords := (Corpus.records_of_make? hcorpus).1
  have hfinds : ∀ {answer}, c.search query (k?.getD defaultK) = .ok answer →
    _ := fun hsearch =>
    finds_of_search hbias hcollection hrecords hunsigned hsearch
  have hrefused : ∀ e, (step o s (.search ⟨name, query.values, k?⟩)).1
      = .error e →
      e.status = 400 ∧ ∀ k, ∃ fault, c.search query k = .error fault := by
    intro e he
    obtain ⟨hstatus, fault, hscored⟩ :=
      scoreRecords_of_step_search hbias hcollection he
    refine ⟨hstatus, fun k => ?_⟩
    cases hsearch : c.search query k with
    | error fault => exact ⟨fault, rfl⟩
    | ok answer =>
        obtain ⟨scored, hall, -⟩ := Corpus.searchWith_eq_ok hsearch
        obtain ⟨fault, hfault⟩ := exists_error_of_scoreRecords hscored
        rw [← hrecords, hall] at hfault
        cases hfault
  constructor
  case answered =>
    intro answer hsearch
    obtain ⟨ranking, hranking, hlength, -, -, hfound⟩ := hfinds hsearch
    exact ⟨ranking, hranking, hlength, hfound⟩
  case faithful =>
    intro hnone answer hsearch
    obtain ⟨ranking, -, -, -, rfl, hfound⟩ := hfinds hsearch
    rwa [hnone] at hfound
  case refused => exact hrefused
  case turnedAway =>
    intro message hcall hstatus
    rw [serve_of_some s hcall] at hstatus
    cases hstep : step o s (.search ⟨name, query.values, k?⟩) with
    | mk result s' =>
        cases result with
        | ok found =>
            rw [hstep] at hstatus
            cases hstatus
        | error e => exact (hrefused e (by rw [hstep])).2
  case missed =>
    intro rank hdrop hrank answer hsearch comparator htolerance hrecall
    obtain ⟨ranking, -, hlength, hnodup, rfl, hfound⟩ := hfinds hsearch
    have hk : rank < k?.getD defaultK := by omega
    have hsize : rank < ranking.length := by omega
    obtain ⟨report, hcompare, hmissed, hsurplus⟩ :=
      compare_without htolerance hrecall hnodup hk hsize
    rw [hdrop] at hfound
    refine ⟨_, report, hfound, hcompare, ?_, ?_, ?_⟩
    · rw [hmissed, List.getElem?_take_of_lt hk, List.getElem?_eq_getElem hsize]
      rfl
    · rw [hmissed]
      rfl
    · rw [hsurplus, List.length_map, ← hlength]
      split
      · next hlt =>
          rw [List.getElem?_eq_getElem hlt]
          rfl
      · next hge =>
          rw [List.getElem?_eq_none (Nat.le_of_not_lt hge)]
          rfl

end searching

-- ------------------------------------------------------------ an instance

/-- A service that leaves out the second of what it finds. -/
def withoutSecond : Options := { dropRank := some 1 }

/-- A service that holds four vectors. -/
def holdsFour : State :=
  { State.initial with
    collections :=
      Dictionary.empty.put "four" ⟨1, Corpus.fourVectors.records, false⟩ }

/-- Of four vectors with one direction the second is left out, and the
third moves up. -/
theorem search_mirrors_of_ties :
    Mirrors withoutSecond holdsFour "four" Corpus.fourVectors ⟨⟨1⟩, [1.0]⟩
      (some 2) ∧
    ∃ answer found report,
      Corpus.fourVectors.search ⟨⟨1⟩, [1.0]⟩ 2 = .ok answer ∧
      Finds withoutSecond holdsFour ⟨"four", [1.0], some 2⟩ found ∧
      Comparator.compare {} answer found = .ok report ∧
      answer.map Neighbor.id = [⟨7⟩, ⟨9⟩] ∧ report.falseNegatives = [⟨9⟩] ∧
      report.falsePositives.length = 1 := by
  let one : Score := ⟨0x3FF0000000000000⟩
  let scored : List Neighbor :=
    [⟨⟨7⟩, one⟩, ⟨⟨9⟩, one⟩, ⟨⟨4⟩, one⟩, ⟨⟨2⟩, one⟩]
  have hunsigned : Unsigned [1.0] Corpus.fourVectors.records := by
    have hscores : ∀ r ∈ Corpus.fourVectors.records,
        (cosine [1.0] r.values).toOption = some one := by
      decide +kernel
    intro r hr hzero
    have hone := hscores r hr
    rw [hzero] at hone
    revert hone
    decide +kernel
  have hmirrors : Mirrors withoutSecond holdsFour "four" Corpus.fourVectors
      ⟨⟨1⟩, [1.0]⟩ (some 2) :=
    search_mirrors rfl rfl (Corpus.make?_records Corpus.fourVectors) hunsigned
  have hsearch : Corpus.fourVectors.search ⟨⟨1⟩, [1.0]⟩ 2
      = .ok [⟨⟨7⟩, one⟩, ⟨⟨9⟩, one⟩] := by
    have hquery : Corpus.fourVectors.admit? ⟨⟨1⟩, [1.0]⟩ = .ok () :=
      eq_ok_of_toOption (by decide +kernel)
    have hscored : scoreAll cosine [1.0] Corpus.fourVectors.records
        = .ok scored :=
      eq_ok_of_toOption (by decide +kernel)
    have hrank : Neighbor.rank scored = scored :=
      List.mergeSort_of_pairwise (by decide)
    rw [Corpus.search, Corpus.searchWith_of_scored hquery hscored, hrank]
    rfl
  obtain ⟨found, report, hfinds, hcompare, hmissed, -, hsurplus⟩ :=
    hmirrors.missed 1 rfl (by decide) _ hsearch {} (by decide +kernel)
      (by decide +kernel)
  exact ⟨hmirrors, _, found, report, hsearch, hfinds, hcompare, rfl, hmissed,
    hsurplus⟩

end KnnOracle
