/-
Jobs between a window and a service.

A job that was started is in flight until its answer is received, and on
its way there it is in one of three places: the call has not reached the
service yet, or the answer was posted and waits, or the answer is in. The
window knows only the jobs in flight and those that wait to be started.
`Window.Course` ties it to the calls under way and to the answers posted:
`served` are the jobs that have reached the service, in the order in which
they did, and `flight` are those under way.

Each of the three things that can happen keeps the course (`start`,
`serve`, `finish`), and as long as a job is in flight, its call is under
way or its answer waits (`Course.underway_or_posted`).
-/
import KnnOracle.Proofs.Exchange.Returning
import KnnOracle.Proofs.Service.Meeting

namespace KnnOracle

namespace Window

variable {β : Type}

/-- The jobs of a window, the calls under way and the answers belong
together. Every job is answered with its reply. -/
structure Course (call : β → Call) (reply : (job : β) → Reply (call job))
    (first : Nat) (jobs : List β) (w : Window β)
    (served flight : List (Nat × β)) (underway : List (Nat × Call))
    (posted : List Move) : Prop where
  underway_eq : underway = flight.map fun job => (job.1, call job.2)
  split : (served ++ flight ++ w.waiting).Perm (number first jobs)
  flying_sub : ∀ job ∈ w.flying, job ∈ served ∨ job ∈ flight
  flight_sub : ∀ job ∈ flight, job ∈ w.flying
  nodup_flying : (w.flying.map Prod.fst).Nodup
  posted_of_served : ∀ job ∈ served,
    Move.receive job.1 (call job.2) (reply job.2) ∈ posted
  served_of_posted : ∀ number c (r : Reply c),
    Move.receive number c r ∈ posted →
    first ≤ number → ∃ job ∈ served,
      Move.receive number c r = .receive job.1 (call job.2) (reply job.2)

-- ------------------------------------------------- what is left to be done

/-- What is left to be done: a job under way is to be served, too. -/
def remaining (w : Window β) (underway : List (Nat × Call)) : Nat :=
  2 * w.left + underway.length

section remaining

variable {w w' : Window β} {underway before after : List (Nat × Call)}

/-- To start a job leaves less to be done: it is on its way now, but does not
wait any more. -/
theorem remaining_start {job : Nat × β} (h : w.start? = some (job, w'))
    (sent : Nat × Call) :
    w'.remaining (underway ++ [sent]) < w.remaining underway := by
  have hlt := left_start h
  unfold remaining
  rw [List.length_append, List.length_singleton]
  omega

/-- To serve a job leaves less to be done, although the window does not
notice. -/
theorem remaining_serve (served : Nat × Call) :
    w.remaining (before ++ after)
      < w.remaining (before ++ served :: after) := by
  unfold remaining
  rw [List.length_append, List.length_append, List.length_cons]
  omega

/-- To finish a job leaves less to be done. With the other two this makes every
turn count, so that a window is through after finitely many. -/
theorem remaining_finish {number : Nat} {job : β}
    (h : (number, job) ∈ w.flying) :
    (w.finish number).remaining underway < w.remaining underway := by
  have hlt := left_finish h
  unfold remaining
  omega

end remaining

namespace Course

variable {call : β → Call} {reply : (job : β) → Reply (call job)} {first : Nat}
  {jobs : List β}
  {w : Window β} {served flight : List (Nat × β)}
  {underway : List (Nat × Call)}
  {posted : List Move}

/-- Before a job is started, all that was posted is older. -/
theorem ofJobs (width : Nat)
    (hposted : ∀ number c (r : Reply c), Move.receive number c r ∈ posted →
      number < first) :
    Course call reply first jobs (.ofJobs width first jobs) [] [] []
      posted where
  underway_eq := rfl
  split := List.Perm.refl _
  flying_sub := by
    intro job hjob
    cases hjob
  flight_sub := by
    intro job hjob
    cases hjob
  nodup_flying := List.nodup_nil
  posted_of_served := by
    intro job hjob
    cases hjob
  served_of_posted := by
    intro number c r hmem hle
    have hlt := hposted number c r hmem
    omega

/-- No number is given to two jobs, wherever these are. -/
theorem nodup
    (h : Course call reply first jobs w served flight underway posted) :
    ((served ++ flight ++ w.waiting).map Prod.fst).Nodup :=
  (h.split.map Prod.fst).nodup_iff.mpr (nodup_number first jobs)

/-- Where numbers are given once, a number tells the job. A reply is thus put
to the right one. -/
theorem eq_of_fst_eq
    (h : Course call reply first jobs w served flight underway posted)
    {job other : Nat × β} (hjob : job ∈ served ++ flight ++ w.waiting)
    (hother : other ∈ served ++ flight ++ w.waiting) (heq : job.1 = other.1) :
    job = other :=
  List.inj_on_of_nodup_map h.nodup hjob hother heq

theorem mem_of_flying
    (h : Course call reply first jobs w served flight underway posted)
    {job : Nat × β} (hjob : job ∈ w.flying) :
    job ∈ served ++ flight ++ w.waiting :=
  List.mem_append_left _ (List.mem_append.mpr (h.flying_sub job hjob))

theorem first_le
    (h : Course call reply first jobs w served flight underway posted)
    {job : Nat × β} (hjob : job ∈ served ++ flight ++ w.waiting) :
    first ≤ job.1 := by
  obtain ⟨i, hi, -⟩ := mem_number.mp (h.split.mem_iff.mp hjob)
  omega

theorem fst_ne_of_waiting
    (h : Course call reply first jobs w served flight underway posted)
    {job other : Nat × β} (hjob : job ∈ w.waiting)
    (hother : other ∈ w.flying) :
    other.1 ≠ job.1 := by
  have hnodup := h.nodup
  rw [List.map_append, List.nodup_append] at hnodup
  have hleft : other.1 ∈ (served ++ flight).map Prod.fst :=
    List.mem_map_of_mem (List.mem_append.mpr (h.flying_sub other hother))
  exact hnodup.2.2 _ hleft _ (List.mem_map_of_mem hjob)

-- ========================================================= what can happen

/-- The course goes on with the next job, which is in flight and on its way
from then on. -/
theorem start {w' : Window β} {job : Nat × β}
    (h : Course call reply first jobs w served flight underway posted)
    (hstart : w.start? = some (job, w')) :
    Course call reply first jobs w' served (flight ++ [job])
      (underway ++ [(job.1, call job.2)]) posted := by
  obtain ⟨hwaiting, hflying, -, -⟩ := start?_eq_some hstart
  have hmem : job ∈ w.waiting := by
    rw [hwaiting]
    exact List.mem_cons_self ..
  refine ⟨?_, ?_, ?_, ?_, ?_, h.posted_of_served, h.served_of_posted⟩
  · rw [h.underway_eq, List.map_append]
    rfl
  · have hsplit := h.split
    rw [hwaiting] at hsplit
    rw [List.append_assoc, List.append_assoc, List.singleton_append,
      ← List.append_assoc]
    exact hsplit
  · intro other hother
    rw [hflying] at hother
    rcases List.mem_append.mp hother with hother | hother
    · exact (h.flying_sub other hother).imp_right (List.mem_append_left _)
    · exact .inr (List.mem_append_right _ hother)
  · intro other hother
    rw [hflying]
    rcases List.mem_append.mp hother with hother | hother
    · exact List.mem_append_left _ (h.flight_sub other hother)
    · exact List.mem_append_right _ hother
  · rw [hflying, List.map_append, List.map_singleton, ← List.concat_eq_append]
    refine h.nodup_flying.concat fun hbefore => ?_
    obtain ⟨other, hother, heq⟩ := List.mem_map.mp hbefore
    exact h.fst_ne_of_waiting hmem hother heq

/-- What reaches the service is a job, and with its reply the course goes on.
Any of the jobs under way may be the next. -/
theorem serve {before after : List (Nat × Call)} {number : Nat} {c : Call}
    (h : Course call reply first jobs w served flight underway posted)
    (hunderway : underway = before ++ (number, c) :: after) :
    ∃ job rest, (number, c) = (job.1, call job.2) ∧
      ((served ++ [job]).map Prod.snd).Subperm jobs ∧
      Course call reply first jobs w (served ++ [job]) rest (before ++ after)
        (posted ++ [.receive job.1 (call job.2) (reply job.2)]) := by
  obtain ⟨left, tail, hflight, hbefore, htail⟩ :=
    List.map_eq_append_iff.mp (h.underway_eq.symm.trans hunderway)
  obtain ⟨job, right, rfl, hjob, hafter⟩ := List.map_eq_cons_iff.mp htail
  refine ⟨job, left ++ right, hjob.symm, ?_, ?_, ?_, ?_, ?_,
    h.nodup_flying, ?_, ?_⟩
  · have hsub : (served ++ [job]).Subperm (Window.number first jobs) := by
      refine List.Subperm.trans ?_ h.split.subperm
      rw [hflight, List.append_assoc, List.append_assoc,
        List.subperm_append_left]
      exact List.singleton_subperm_iff.mpr (by simp)
    obtain ⟨chosen, hperm, hsublist⟩ := hsub
    have hmap := hsublist.map Prod.snd
    rw [map_snd_number] at hmap
    exact ⟨chosen.map Prod.snd, hperm.map Prod.snd, hmap⟩
  · rw [List.map_append, hbefore, hafter]
  · -- the job moves in front of the others under way
    refine List.Perm.trans ?_ h.split
    rw [hflight]
    refine List.Perm.append_right _ ?_
    rw [List.append_assoc, List.singleton_append]
    exact List.Perm.append_left _ List.perm_middle.symm
  · intro other hother
    rcases h.flying_sub other hother with hserved | hflying
    · exact .inl (List.mem_append_left _ hserved)
    · rw [hflight] at hflying
      rcases List.mem_append.mp hflying with hleft | hright
      · exact .inr (List.mem_append_left _ hleft)
      · rcases List.mem_cons.mp hright with rfl | hright
        · exact .inl (List.mem_append_right _ (List.mem_singleton_self _))
        · exact .inr (List.mem_append_right _ hright)
  · intro other hother
    refine h.flight_sub other ?_
    rw [hflight]
    rcases List.mem_append.mp hother with hother | hother
    · exact List.mem_append_left _ hother
    · exact List.mem_append_right _ (List.mem_cons_of_mem _ hother)
  · intro other hother
    rcases List.mem_append.mp hother with hother | hother
    · exact List.mem_append_left _ (h.posted_of_served other hother)
    · rw [List.mem_singleton.mp hother]
      exact List.mem_append_right _ (List.mem_singleton_self _)
  · intro n c' r hmem hle
    rcases List.mem_append.mp hmem with hmem | hmem
    · obtain ⟨other, hother, heq⟩ := h.served_of_posted n c' r hmem hle
      exact ⟨other, List.mem_append_left _ hother, heq⟩
    · exact ⟨job, List.mem_append_right _ (List.mem_singleton_self _),
        List.mem_singleton.mp hmem⟩

/-- A job in flight whose answer was posted has been served, and the answer is
the one that the service gives to it. -/
theorem eq_reply {number : Nat} {job : β} {r : Reply (call job)}
    (h : Course call reply first jobs w served flight underway posted)
    (hflying : (number, job) ∈ w.flying)
    (hposted : Move.receive number (call job) r ∈ posted) :
    (number, job) ∈ served ∧ r = reply job := by
  have hmem := h.mem_of_flying hflying
  obtain ⟨other, hother, heq⟩ :=
    h.served_of_posted _ _ _ hposted (h.first_le hmem)
  have hnumber : number = other.1 := (Move.receive.inj heq).1
  have hsame : (number, job) = other := by
    refine h.eq_of_fst_eq hmem ?_ hnumber
    exact List.mem_append_left _ (List.mem_append_left _ hother)
  subst hsame
  exact ⟨hother, eq_of_heq (Move.receive.inj heq).2.2⟩

/-- The answer to a job is received, and the job leaves the window. -/
theorem finish {number : Nat} {job : β}
    (h : Course call reply first jobs w served flight underway posted)
    (hserved : (number, job) ∈ served) :
    Course call reply first jobs (w.finish number) served flight underway
      posted where
  underway_eq := h.underway_eq
  split := h.split
  flying_sub :=
    fun other hother => h.flying_sub other (List.mem_of_mem_filter hother)
  flight_sub := by
    intro other hother
    refine List.mem_filter.mpr
      ⟨h.flight_sub other hother, bne_iff_ne.mpr fun heq => ?_⟩
    -- nothing that is under way was served
    have hnodup := h.nodup
    rw [List.map_append, List.map_append, List.append_assoc, List.nodup_append]
      at hnodup
    have hright : other.1 ∈ flight.map Prod.fst ++ w.waiting.map Prod.fst :=
      List.mem_append_left _ (List.mem_map_of_mem hother)
    exact hnodup.2.2 number (List.mem_map_of_mem hserved) _ hright heq.symm
  nodup_flying := h.nodup_flying.sublist (List.filter_sublist.map Prod.fst)
  posted_of_served := h.posted_of_served
  served_of_posted := h.served_of_posted

theorem left_finish {number : Nat} {job : β}
    (h : Course call reply first jobs w served flight underway posted)
    (hflying : (number, job) ∈ w.flying) :
    (w.finish number).left + 1 = w.left := by
  have hlength := (perm_cons_filter h.nodup_flying hflying).length_eq
  rw [List.length_cons] at hlength
  show 2 * w.waiting.length + _ + 1 = 2 * w.waiting.length + w.flying.length
  rw [hlength, Nat.add_assoc]
  rfl

/-- No answer has a number that is given later, so an old answer is never taken
for a new one. -/
theorem lt_of_posted {number : Nat} {c : Call} {r : Reply c}
    (h : Course call reply first jobs w served flight underway posted)
    (hposted : Move.receive number c r ∈ posted) :
    number < first + jobs.length := by
  by_cases hle : first ≤ number
  · obtain ⟨job, hjob, heq⟩ := h.served_of_posted number c r hposted hle
    have hmem :=
      h.split.mem_iff.mp (List.mem_append_left _ (List.mem_append_left _ hjob))
    obtain ⟨i, hi, hget⟩ := mem_number.mp hmem
    have hlt := (List.getElem?_eq_some_iff.mp hget).1
    have hnumber : number = job.1 := (Move.receive.inj heq).1
    omega
  · omega

-- ============================================================ the two ends

/-- A job in flight can be served, or its answer can be received. A window with
jobs in flight is never stuck. -/
theorem underway_or_posted {job : Nat × β}
    (h : Course call reply first jobs w served flight underway posted)
    (hjob : job ∈ w.flying) :
    (∃ before after, underway = before ++ (job.1, call job.2) :: after) ∨
    Move.receive job.1 (call job.2) (reply job.2) ∈ posted := by
  rcases h.flying_sub job hjob with hserved | hflight
  · exact .inr (h.posted_of_served job hserved)
  · left
    apply List.append_of_mem
    rw [h.underway_eq]
    exact List.mem_map_of_mem hflight

/-- When no job is left all were served, and no call is under way. -/
theorem ended
    (h : Course call reply first jobs w served flight underway posted)
    (hover : w.isOver = true) :
    underway = [] ∧ (served.map Prod.snd).Perm jobs := by
  have hempty : w.waiting = [] ∧ w.flying = [] := by
    simpa [isOver] using hover
  have hflight : flight = [] := by
    refine List.eq_nil_iff_forall_not_mem.mpr fun job hjob => ?_
    have hflying := h.flight_sub job hjob
    rw [hempty.2] at hflying
    cases hflying
  have hsplit := h.split
  rw [hflight, hempty.1, List.append_nil, List.append_nil] at hsplit
  refine ⟨?_, ?_⟩
  · rw [h.underway_eq, hflight]
    rfl
  · have hmap := hsplit.map Prod.snd
    rwa [map_snd_number] at hmap

end Course

end Window

end KnnOracle
