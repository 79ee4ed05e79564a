import AgentFleet.Proofs.CloudCalls

namespace AgentFleet
open AgentFleet.Action Cloud

namespace Cloud

theorem Script.with_with {Answer : Operation → Type} (script : Script Answer) (o : Operation)
    (answers more : List (Except Fault (Answer o))) :
    (script.with o answers).with o more = script.with o more := by
  funext p
  by_cases hp : o = p
  · subst hp
    rw [Script.with_self, Script.with_self]
  · rw [Script.with_of_ne _ _ hp, Script.with_of_ne _ _ hp, Script.with_of_ne _ _ hp]

end Cloud

namespace Situation

/-- `t` is `s` after these requests to AWS, all of one operation. Each has used up one answer. -/
structure Sent (o : Operation) (requests : List Aws.Request) (s t : Situation) : Prop where
  operation : ∀ r ∈ requests, r.operation = o
  events : t.events = s.events ++ requests.map fun r => .sent r s.disk s.roster
  aws : t.aws = s.aws.with o ((s.aws o).drop requests.length)
  same : t = { s with aws := t.aws, history := t.history }

namespace Sent

variable {o : Operation} {requests more : List Aws.Request} {s t u : Situation}

theorem answers (h : Sent o requests s t) : t.aws o = (s.aws o).drop requests.length := by
  rw [h.aws, Script.with_self]

theorem refl (o : Operation) (s : Situation) : Sent o [] s s := by
  refine ⟨by simp, by simp, ?_, rfl⟩
  rw [List.length_nil, List.drop_zero, Script.with_of_eq rfl]

theorem trans (h : Sent o requests s t) (h' : Sent o more t u) :
    Sent o (requests ++ more) s u := by
  refine ⟨fun r hr => ?_, ?_, ?_, ?_⟩
  · rcases List.mem_append.mp hr with hr | hr
    · exact h.operation r hr
    · exact h'.operation r hr
  · have hdisk : t.disk = s.disk := by rw [h.same]
    have hroster : t.roster = s.roster := by rw [h.same]
    rw [h'.events, h.events, hdisk, hroster, List.map_append, List.append_assoc]
  · rw [h'.aws, h.aws, Script.with_with, Script.with_self, List.drop_drop, List.length_append]
  · rw [h'.same, h.same]

end Sent

end Situation

theorem Action.outcome_explain (act : Action α) (meaning : Fault → Option Trouble) (s : Situation) :
    (act.explain meaning).outcome s =
      (act.outcome s).mapError fun f => ((meaning f).map f.because).getD f := by
  cases h : act.outcome s with
  | ok a => rw [outcome, explain_ok_run meaning (run_ok h)]; rfl
  | error f => rw [outcome, explain_error_run meaning (run_error h)]; rfl

namespace Cloud.Aws

/-- The fault of a request, as the fleet is told of it. -/
def toldAs (o : Operation) (f : Fault) : Fault :=
  ((refusal o f).map f.because).getD f

theorem sent_send (r : Request) (s : Situation) :
    s.Sent r.operation [r] ((send r).after s) := by
  rw [after_send]
  refine ⟨by simp, ?_, by simp, rfl⟩
  simp [Situation.events, Situation.record]

theorem sent_call (r : Request) (s : Situation) :
    s.Sent r.operation [r] ((call r).after s) := by
  rw [call, after_explain]
  exact sent_send r s

theorem outcome_call (r : Request) (s : Situation) :
    (call r).outcome s =
      (replied (s.aws r.operation) (r.operation.name .aws)).mapError (toldAs r.operation) := by
  rw [call, outcome_explain, outcome_send]
  rfl

/-- What AWS has to say of an instance. -/
def described (i : Instance) : InstanceDescription :=
  ⟨some i.id, i.state, i.publicAddress, i.privateAddress⟩

namespace Page

def descriptions (p : Page) : List InstanceDescription :=
  p.reservations.flatten

/-- The page carries the token of another one. -/
def Continues (p : Page) : Prop :=
  p.next ≠ none ∧ p.next ≠ some []

/-- All instances carry their ids. -/
def Identified (p : Page) : Prop :=
  ∀ d ∈ p.descriptions, d.id ≠ none

instance (p : Page) : Decidable p.Continues :=
  inferInstanceAs (Decidable (_ ∧ _))

instance (p : Page) : Decidable p.Identified :=
  inferInstanceAs (Decidable (∀ d ∈ _, _))

end Page

theorem toInstance_eq_ok {d : InstanceDescription} {i : Instance} :
    d.toInstance = .ok i ↔ described i = d := by
  obtain ⟨id, state, outer, inner⟩ := d
  obtain ⟨id', state', outer', inner'⟩ := i
  cases id <;> simp [InstanceDescription.toInstance, required, described, Except.map, eq_comm]

theorem mapM_toInstance_eq_ok {ds : List InstanceDescription} {l : List Instance} :
    ds.mapM (·.toInstance) = .ok l ↔ l.map described = ds := by
  induction ds generalizing l with
  | nil => simp [pure, Except.pure, eq_comm]
  | cons d ds ih =>
    rw [List.mapM_cons, except_bind_eq_ok, List.map_eq_cons_iff]
    constructor
    · rintro ⟨i, hi, h⟩
      obtain ⟨rest, hrest, h⟩ := except_bind_eq_ok.mp h
      cases h
      exact ⟨i, rest, rfl, toInstance_eq_ok.mp hi, ih.mp hrest⟩
    · rintro ⟨i, rest, rfl, hi, hrest⟩
      refine ⟨i, toInstance_eq_ok.mpr hi, ?_⟩
      rw [ih.mpr hrest]
      rfl

variable {f : Fault}

theorem required_error {key : Text} {a : Option α} (h : required key a = .error f) :
    f = .of (.missingKey key) := by
  cases a with
  | none =>
    cases h
    rfl
  | some _ => cases h

theorem instances_error {ds : List InstanceDescription} (h : ds.mapM (·.toInstance) = .error f) :
    ∃ key, f = .of (.missingKey key) := by
  obtain ⟨d, _, hd⟩ := mem_of_mapM_error h
  unfold InstanceDescription.toInstance at hd
  cases hid : required "InstanceId" d.id with
  | ok id =>
    rw [hid] at hd
    cases hd
  | error g =>
    rw [hid] at hd
    cases hd
    exact ⟨_, required_error hid⟩

theorem balancers_error {ds : List BalancerDescription} (h : ds.mapM (·.toBalancer) = .error f) :
    ∃ key, f = .of (.missingKey key) := by
  obtain ⟨d, _, hd⟩ := mem_of_mapM_error h
  rcases except_bind_eq_error.mp hd with hname | ⟨name, _, hd⟩
  · exact ⟨_, required_error hname⟩
  · rcases except_bind_eq_error.mp hd with hids | ⟨ids, _, hd⟩
    · obtain ⟨id, _, hid⟩ := mem_of_mapM_error hids
      exact ⟨_, required_error hid⟩
    · cases hd

namespace Page

variable {p : Page}

theorem instances_eq_ok {l : List Instance} :
    p.instances = .ok l ↔ l.map described = p.descriptions :=
  mapM_toInstance_eq_ok

theorem Identified.instances (h : p.Identified) : ∃ l, p.instances = .ok l := by
  have hd : ∀ d : InstanceDescription, d.id ≠ none → ∃ i, d.toInstance = .ok i ∧ True := by
    intro d hd
    obtain ⟨id, hid⟩ := Option.ne_none_iff_exists'.mp hd
    refine ⟨⟨id, d.state, d.publicAddress, d.privateAddress⟩, toInstance_eq_ok.mpr ?_, trivial⟩
    rw [described, ← hid]
  obtain ⟨l, hl, _⟩ := mapM_ok hd h
  exact ⟨l, hl⟩

theorem continues_iff : p.Continues ↔ ∃ token, present? p.next = some token := by
  unfold Continues present?
  rcases p.next with _ | _ | ⟨c, rest⟩ <;> simp

end Page

variable {ids addresses : List Text} {token : Option Text} {pages : List Page}
  {answer : Except Fault Page} {rest : List (Except Fault Page)} {requests : List Request}
  {result : Except Fault (List Instance)} {s : Situation}

/-- What comes of asking for pages from the one with a token on, and the requests for them, told
from the answers that are to come. -/
inductive Pages (ids addresses : List Text) : Option Text → List (Except Fault Page) →
    List Request → Except Fault (List Instance) → Prop
  | silent {token : Option Text} :
      Pages ids addresses token [] [.describeInstances ids addresses token]
        (.error (.of (.noReply (Operation.describeInstances.name .aws))))
  | failed {token : Option Text} {f : Fault} {rest : List (Except Fault Page)} :
      Pages ids addresses token (.error f :: rest) [.describeInstances ids addresses token]
        (.error (toldAs .describeInstances f))
  | nameless {token : Option Text} {p : Page} {rest : List (Except Fault Page)} {f : Fault}
      (hp : p.instances = .error f) :
      Pages ids addresses token (.ok p :: rest) [.describeInstances ids addresses token] (.error f)
  | last {token : Option Text} {p : Page} {rest : List (Except Fault Page)} {l : List Instance}
      (hp : p.instances = .ok l) (hlast : ¬ p.Continues) :
      Pages ids addresses token (.ok p :: rest) [.describeInstances ids addresses token] (.ok l)
  | more {token : Option Text} {p : Page} {rest : List (Except Fault Page)} {l : List Instance}
      {requests : List Request} {result : Except Fault (List Instance)}
      (hp : p.instances = .ok l) (hmore : p.Continues)
      (h : Pages ids addresses p.next rest requests result) :
      Pages ids addresses token (.ok p :: rest)
        (.describeInstances ids addresses token :: requests) (result.map (l ++ ·))

section Running

variable {n : Nat} {p : Page} {l : List Instance} {f : Fault}

theorem describePages_failed
    (h : (call (.describeInstances ids addresses token)).outcome s = .error f) :
    describePages ids addresses (n + 1) token s =
      .error f ((call (.describeInstances ids addresses token)).after s) :=
  bind_run_error (run_error h)

theorem describePages_nameless
    (h : (call (.describeInstances ids addresses token)).outcome s = .ok p)
    (hp : p.instances = .error f) :
    describePages ids addresses (n + 1) token s =
      .error f ((call (.describeInstances ids addresses token)).after s) :=
  (bind_run (run_ok h)).trans (bind_run_error (ofExcept_eq_error.mpr ⟨hp, rfl⟩))

theorem describePages_last
    (h : (call (.describeInstances ids addresses token)).outcome s = .ok p)
    (hp : p.instances = .ok l) (hlast : ¬ p.Continues) :
    describePages ids addresses (n + 1) token s =
      .ok l ((call (.describeInstances ids addresses token)).after s) := by
  have hnone : present? p.next = none :=
    Option.eq_none_iff_forall_ne_some.mpr fun next hnext =>
      hlast (Page.continues_iff.mpr ⟨next, hnext⟩)
  refine (bind_run (run_ok h)).trans ((bind_run (ofExcept_eq_ok.mpr ⟨hp, rfl⟩)).trans ?_)
  rw [hnone]
  rfl

theorem describePages_more
    (h : (call (.describeInstances ids addresses token)).outcome s = .ok p)
    (hp : p.instances = .ok l) (hmore : p.Continues) :
    (describePages ids addresses (n + 1) token).outcome s =
        ((describePages ids addresses n p.next).outcome
          ((call (.describeInstances ids addresses token)).after s)).map (l ++ ·) ∧
      (describePages ids addresses (n + 1) token).after s =
        (describePages ids addresses n p.next).after
          ((call (.describeInstances ids addresses token)).after s) := by
  obtain ⟨next, hnext⟩ := Page.continues_iff.mp hmore
  have hrun : describePages ids addresses (n + 1) token s =
      (describePages ids addresses n p.next >>= fun more => pure (l ++ more) : Action _)
        ((call (.describeInstances ids addresses token)).after s) := by
    refine (bind_run (run_ok h)).trans ((bind_run (ofExcept_eq_ok.mpr ⟨hp, rfl⟩)).trans ?_)
    rw [hnext, mem_of_present? hnext]
  rw [outcome_congr hrun, after_congr hrun, outcome_bind, after_bind]
  cases (describePages ids addresses n p.next).outcome
    ((call (.describeInstances ids addresses token)).after s) <;> exact ⟨rfl, rfl⟩

end Running

/-- Pages are asked for as their answers tell. -/
theorem describePages_pages (ids addresses : List Text) (n : Nat) (token : Option Text)
    (s : Situation) (hn : (s.aws .describeInstances).length < n) :
    ∃ requests, Pages ids addresses token (s.aws .describeInstances) requests
        ((describePages ids addresses n token).outcome s) ∧
      s.Sent .describeInstances requests ((describePages ids addresses n token).after s) := by
  -- by induction on the pages that may come: the first answer ends it, or others are asked for
  induction n generalizing token s with
  | zero => exact absurd hn (Nat.not_lt_zero _)
  | succ n ih =>
    have hsent : s.Sent .describeInstances [.describeInstances ids addresses token]
        ((call (.describeInstances ids addresses token)).after s) :=
      sent_call (.describeInstances ids addresses token) s
    have hcall := outcome_call (.describeInstances ids addresses token) s
    change _ = (replied (s.aws .describeInstances) _).mapError _ at hcall
    cases hs : s.aws .describeInstances with
    | nil =>
      rw [hs] at hcall
      have hrun := describePages_failed (n := n) hcall
      rw [outcome, after_of_error hrun, hrun]
      exact ⟨_, .silent, hsent⟩
    | cons answer rest =>
      rw [hs] at hcall hn
      cases answer with
      | error f =>
        have hrun := describePages_failed (n := n) hcall
        rw [outcome, after_of_error hrun, hrun]
        exact ⟨_, .failed, hsent⟩
      | ok page =>
        cases hp : page.instances with
        | error f =>
          have hrun := describePages_nameless (n := n) hcall hp
          rw [outcome, after_of_error hrun, hrun]
          exact ⟨_, .nameless hp, hsent⟩
        | ok l =>
          by_cases hmore : page.Continues
          · have hanswers := hsent.answers
            rw [hs] at hanswers
            obtain ⟨requests, hpages, hothers⟩ := ih page.next
              ((call (.describeInstances ids addresses token)).after s) (by
                rw [hanswers]
                exact Nat.lt_of_succ_lt_succ hn)
            rw [hanswers] at hpages
            obtain ⟨houtcome, hafter⟩ := describePages_more (n := n) hcall hp hmore
            rw [houtcome, hafter]
            exact ⟨_, .more hp hmore hpages, hsent.trans hothers⟩
          · have hrun := describePages_last (n := n) hcall hp hmore
            rw [outcome, after_of_ok hrun, hrun]
            exact ⟨_, .last hp hmore, hsent⟩

/-- No more pages are asked for than there are, each by the token of the page before it. -/
theorem Pages.requests_eq (h : Pages ids addresses token (pages.map .ok ++ answer :: rest) requests
      result) (hpages : ∀ p ∈ pages, p.Continues ∧ p.Identified)
    (hlast : ∀ last, answer = .ok last → ¬ last.Continues) :
    requests = (token :: pages.map (·.next)).map (.describeInstances ids addresses) := by
  induction pages generalizing token requests result with
  | nil =>
    cases h with
    | failed | nameless | last => rfl
    | more _ hmore => exact absurd hmore (hlast _ rfl)
  | cons p pages ih =>
    obtain ⟨⟨hp, hid⟩, hrest⟩ := List.forall_mem_cons.mp hpages
    cases h with
    | nameless hinstances =>
      obtain ⟨l, hl⟩ := hid.instances
      cases hl.symm.trans hinstances
    | last _ hlast => exact absurd hp hlast
    | more _ _ h =>
      rw [ih h hrest]
      rfl

/-- What ends the pages decides what comes of them. -/
theorem Pages.result_eq (h : Pages ids addresses token (pages.map .ok ++ answer :: rest) requests
      result) (hpages : ∀ p ∈ pages, p.Continues ∧ p.Identified)
    (hlast : ∀ last, answer = .ok last → ¬ last.Continues ∧ last.Identified) :
    (∀ last, answer = .ok last → ∃ l, result = .ok l ∧
      l.map described = (pages ++ [last]).flatMap (·.descriptions)) ∧
    ∀ f, answer = .error f → result = .error (toldAs .describeInstances f) := by
  induction pages generalizing token requests result with
  | nil =>
    refine ⟨?_, ?_⟩
    · rintro last rfl
      obtain ⟨hend, hid⟩ := hlast last rfl
      obtain ⟨l, hl⟩ := hid.instances
      cases h with
      | nameless hinstances => cases hl.symm.trans hinstances
      | last hinstances _ =>
        refine ⟨_, rfl, ?_⟩
        simpa using Page.instances_eq_ok.mp hinstances
      | more _ hmore => exact absurd hmore hend
    · rintro f rfl
      cases h with
      | failed => rfl
  | cons p pages ih =>
    obtain ⟨⟨hp, hid⟩, hrest⟩ := List.forall_mem_cons.mp hpages
    cases h with
    | nameless hinstances =>
      obtain ⟨l, hl⟩ := hid.instances
      cases hl.symm.trans hinstances
    | last _ hlast => exact absurd hp hlast
    | more hinstances _ h =>
      obtain ⟨hcomplete, hbroken⟩ := ih h hrest
      refine ⟨fun last he => ?_, fun f he => ?_⟩
      · obtain ⟨more, rfl, hmore⟩ := hcomplete last he
        refine ⟨_, rfl, ?_⟩
        rw [List.map_append, hmore, Page.instances_eq_ok.mp hinstances, List.cons_append,
          List.flatMap_cons]
      · rw [hbroken f he]
        rfl

/-- What holds of a description of instances that starts at `s`, ends at `t` and comes to a result,
when AWS has pages and then an answer that ends them, a last page or a fault. -/
structure Paged (ids addresses : List Text) (pages : List Page) (answer : Except Fault Page)
    (rest : List (Except Fault Page)) (s t : Situation) (result : Except Fault (List Instance)) :
    Prop where
  /-- One request for each answer: the first has no token, and each other one that of the page just
  before it. -/
  sent : s.Sent .describeInstances
    ((none :: pages.map (·.next)).map (.describeInstances ids addresses)) t
  unused : t.aws .describeInstances = rest
  complete : ∀ last, answer = .ok last → ∃ l, result = .ok l ∧
    l.map described = (pages ++ [last]).flatMap (·.descriptions)
  broken : ∀ f, answer = .error f → f.trouble.isCloud = true →
    result = .error (f.because (.cloudCall "describe_instances" (refusalReason f)))

/-- All pages are asked for, and nothing else; their instances are given in order, each once. When
AWS or its library fails a request, no instances are given and nothing more is asked for. -/
theorem describeInstances_paged (ids addresses : Option (List Text))
    (hgiven : ids.getD [] ≠ [] ∨ addresses.getD [] ≠ [])
    (hscript : s.aws .describeInstances = pages.map .ok ++ answer :: rest)
    (hpages : ∀ p ∈ pages, p.Continues ∧ p.Identified)
    (hlast : ∀ last, answer = .ok last → ¬ last.Continues ∧ last.Identified) :
    Paged (ids.getD []) (addresses.getD []) pages answer rest s
      ((Provider.aws.describeInstances ids addresses).after s)
      ((Provider.aws.describeInstances ids addresses).outcome s) := by
  have hrun : Provider.aws.describeInstances ids addresses s = describePages (ids.getD [])
      (addresses.getD []) ((s.aws .describeInstances).length + 1) none s :=
    describeInstances_run fun h => hgiven.elim (· h.1) (· h.2)
  rw [after_congr hrun, outcome_congr hrun]
  generalize hn : (s.aws .describeInstances).length + 1 = n
  obtain ⟨requests, hrequests, hsent⟩ := describePages_pages (ids.getD []) (addresses.getD []) n
    none s (hn ▸ Nat.lt_succ_self _)
  rw [hscript] at hrequests
  have heq := hrequests.requests_eq hpages fun last he => (hlast last he).1
  obtain ⟨hcomplete, hbroken⟩ := hrequests.result_eq hpages hlast
  have hanswers := hsent.answers
  subst heq
  refine ⟨hsent, ?_, hcomplete, fun f he hcloud => ?_⟩
  · rw [hanswers, hscript]
    simp [List.drop_append]
  · rw [hbroken f he, toldAs, refusal, if_pos hcloud]
    rfl

/-- The instances at one address, as AWS describes them. -/
def lookUp : Action (List Instance) :=
  Provider.aws.describeInstances none (some ["p"])

/-- Two instances, in two of three reservations. Another page follows. -/
def firstPage : Page :=
  ⟨[[⟨some "i-1", some State.running, some "p", some "x"⟩], [], [⟨some "i-2", none, none, none⟩]],
    some "2"⟩

def lastPage : Page :=
  ⟨[[⟨some "i-3", none, none, none⟩]], some []⟩

def rejected : Fault :=
  .of (.rejected ⟨some "RequestLimitExceeded", some "Slow down",
    "An error occurred (RequestLimitExceeded) when calling the DescribeInstances operation"⟩)

/-- These answers are to come when instances are described. -/
def describing (answers : List (Except Fault Page)) : Situation :=
  { Situation.bare ⟨.root, [], []⟩ ⟨"a", []⟩ with
    aws := fun
      | .describeInstances => answers
      | _ => [] }

/-- Of four pages three are asked for, since the third one carries an empty token. Where the second
request is rejected, the instances of the first page are not given. -/
theorem describeInstances_paged_threePages :
    lookUp.outcome (describing [.ok firstPage, .ok ⟨[], some "3"⟩, .ok lastPage, .ok firstPage]) =
      .ok [⟨"i-1", some State.running, some "p", some "x"⟩, ⟨"i-2", none, none, none⟩,
        ⟨"i-3", none, none, none⟩] ∧
    (lookUp.after (describing [.ok firstPage, .ok ⟨[], some "3"⟩, .ok lastPage, .ok firstPage])).aws
      .describeInstances = [.ok firstPage] ∧
    lookUp.outcome (describing [.ok firstPage, .error rejected, .ok lastPage]) =
      .error (rejected.because (.cloudCall "describe_instances" (refusalReason rejected))) ∧
    (describing [.ok firstPage, .error rejected, .ok lastPage]).Sent .describeInstances
      [.describeInstances [] ["p"] none, .describeInstances [] ["p"] (some "2")]
      (lookUp.after (describing [.ok firstPage, .error rejected, .ok lastPage])) := by
  have hwhole : Paged [] ["p"] [firstPage, ⟨[], some "3"⟩] (.ok lastPage) [.ok firstPage]
      (describing [.ok firstPage, .ok ⟨[], some "3"⟩, .ok lastPage, .ok firstPage])
      (lookUp.after _) (lookUp.outcome _) :=
    describeInstances_paged none (some ["p"]) (by decide) rfl (by decide)
      (by rintro last ⟨⟩; decide)
  have hbroken : Paged [] ["p"] [firstPage] (.error rejected) [.ok lastPage]
      (describing [.ok firstPage, .error rejected, .ok lastPage])
      (lookUp.after _) (lookUp.outcome _) :=
    describeInstances_paged none (some ["p"]) (by decide) rfl (by decide) nofun
  obtain ⟨l, hl, hdescribed⟩ := hwhole.complete lastPage rfl
  refine ⟨hl.trans ?_, hwhole.unused, hbroken.broken rejected rfl rfl, hbroken.sent⟩
  exact (mapM_toInstance_eq_ok.mpr hdescribed).symm.trans rfl

end Cloud.Aws

end AgentFleet
