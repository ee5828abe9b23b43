import Libnei.Http.Redirect

/-!
# Redirect chains

A chain is bounded by its hop budget, ends with one callback and sends no
credentials once it has left an origin.  The loop guard compares origin, path
and query without separators, so it is right only where no two URLs of the
chain have the same concatenation.
-/

namespace Libnei.Http

variable {Address Context : Type}

/-- No `Authorization` and no `Cookie` header. -/
def Anonymous (request : HttpRequest) : Prop :=
  ∀ header ∈ request.headers,
    equalsCaseInsensitiveASCII header.name (ascii "Authorization") = false ∧
      equalsCaseInsensitiveASCII header.name (ascii "Cookie") = false

/-- What a hop keeps of the one before. -/
structure Redirected (hop next : Hop Address Context) : Prop where
  headers : next.request.headers ⊆ hop.request.headers
  credentials : sameOrigin hop.request.url next.request.url = false →
    Anonymous next.request

/-- The chains with a hop budget behind the hops with the given keys. -/
inductive Chain : List Bytes → Int → Hop Address Context →
      List (RedirectEvent Address Context) → Prop
  | failed {seen : List Bytes} {hopsLeft : Int}
      {hop : Hop Address Context} :
      Chain seen hopsLeft hop [.send hop, .final none]
  | looped {seen : List Bytes} {hopsLeft : Int}
      {hop : Hop Address Context} {response : Option HttpResponse} :
      loopKey hop.request.url ∈ seen →
      Chain seen hopsLeft hop
        [.send hop, .guard hop.request.url true, .final response]
  | delivered {seen : List Bytes} {hopsLeft : Int}
      {hop : Hop Address Context} {response : Option HttpResponse} :
      Chain seen hopsLeft hop
        [.send hop, .guard hop.request.url false, .final response]
  | followed {seen : List Bytes} {hopsLeft : Int}
      {hop next : Hop Address Context}
      {events : List (RedirectEvent Address Context)} :
      0 < hopsLeft → Redirected hop next →
      Chain (loopKey hop.request.url :: seen) (hopsLeft - 1) next events →
      Chain seen hopsLeft hop
        (.send hop :: .guard hop.request.url false :: events)

/-! ## The driver runs such chains -/

theorem eraseHeaders_subset (headers : HttpHeaders) (drop : List Bytes) :
    eraseHeaders headers drop ⊆ headers :=
  List.filter_subset_self headers

variable (request : HttpRequest)

theorem redirectedRequest_url (decision : RedirectDecision) :
    (redirectedRequest request decision).url = decision.target := by
  rw [redirectedRequest]
  split <;> rfl

theorem redirectedRequest_headers (decision : RedirectDecision) :
    (redirectedRequest request decision).headers ⊆ request.headers := by
  rw [redirectedRequest]
  split
  · exact eraseHeaders_subset _ _
  · exact List.Subset.refl _

theorem anonymous_eraseHeaders {request : HttpRequest} (headers : HttpHeaders)
    (erased : request.headers =
      eraseHeaders headers [ascii "Authorization", ascii "Cookie"]) :
    Anonymous request := by
  intro header member
  rw [erased, eraseHeaders, List.mem_filter] at member
  simpa using member.2

theorem redirected_followRedirect
    {options : RedirectOptions Address Context} {index : Nat}
    {hop next : Hop Address Context} {response : HttpResponse}
    {decision : RedirectDecision}
    (sends : followRedirect options index hop response decision = .send next) :
    Redirected hop next := by
  have url := redirectedRequest_url hop.request decision
  have headers := redirectedRequest_headers hop.request decision
  rw [followRedirect] at sends
  dsimp only at sends
  split at sends
  · rename_i same
    obtain rfl := Continuation.send.inj sends
    refine ⟨headers, fun different => ?_⟩
    rw [url, same] at different
    cases different
  · split at sends
    · cases sends
    · split at sends
      · cases sends
      · obtain rfl := Continuation.send.inj sends
        refine ⟨?_, fun _ => anonymous_eraseHeaders _ rfl⟩
        exact List.Subset.trans (eraseHeaders_subset _ _) headers

theorem chain_runHops
    (answers : Nat → Hop Address Context → Option HttpResponse)
    (options : RedirectOptions Address Context) (index : Nat)
    (hopsLeft : Int) (seen : List Bytes) (hop : Hop Address Context) :
    Chain seen hopsLeft hop
      (runHops answers options index hopsLeft seen hop) := by
  rw [runHops]
  split
  · exact .failed
  · rename_i response _
    split
    · rename_i repeated
      exact .looped repeated
    · split
      · exact .delivered
      · rename_i decision follows
        split
        · exact .delivered
        · split
          · exact .delivered
          · rename_i next sends
            have positive := remainingHops_pos follows
            exact .followed positive (redirected_followRedirect sends)
              (chain_runHops answers options (index + 1) (hopsLeft - 1) _ next)
termination_by hopsLeft.toNat
decreasing_by omega

/-! ## What can be seen of a chain -/

def requests (events : List (RedirectEvent Address Context)) :
    List (Hop Address Context) :=
  events.filterMap fun event =>
    match event with
    | .send hop => some hop
    | .guard _ _ => none
    | .final _ => none

def callbacks (events : List (RedirectEvent Address Context)) :
    List (Option HttpResponse) :=
  events.filterMap fun event =>
    match event with
    | .send _ => none
    | .guard _ _ => none
    | .final response => some response

variable {seen : List Bytes} {hopsLeft : Int} {hop : Hop Address Context}
  {events : List (RedirectEvent Address Context)}

namespace Chain

variable (chain : Chain seen hopsLeft hop events)

include chain

theorem requests_le : (requests events).length ≤ hopsLeft.toNat + 1 := by
  induction chain with
  | failed | looped | delivered => simp [requests]
  | @followed seen hopsLeft hop next events positive _ _ ih =>
    have size : (requests (.send hop ::
        .guard hop.request.url false :: events)).length =
          (requests events).length + 1 := by
      simp [requests]
    omega

theorem length_callbacks : (callbacks events).length = 1 := by
  induction chain with
  | failed | looped | delivered => rfl
  | followed _ _ _ ih =>
    rw [← ih]
    rfl

theorem requests_cons :
    ∃ rest, requests events = hop :: rest := by
  cases chain with
  | failed | looped | delivered => exact ⟨[], rfl⟩
  | followed _ _ _ => exact ⟨_, rfl⟩

theorem headers_subset :
    ∀ later ∈ requests events, later.request.headers ⊆ hop.request.headers := by
  induction chain with
  | failed | looped | delivered => simp [requests]
  | followed _ redirected _ ih =>
    intro later member
    rcases List.mem_cons.mp member with rfl | behind
    · exact List.Subset.refl _
    · exact List.Subset.trans (ih later behind)
        redirected.headers

end Chain

theorem Anonymous.of_subset {request later : HttpRequest}
    (anonymous : Anonymous request)
    (subset : later.headers ⊆ request.headers) : Anonymous later :=
  fun header member => anonymous header (subset member)

/-- From the first hop to another origin on no request has credentials. -/
def CredentialSafe (hops : List (Hop Address Context)) : Prop :=
  ∀ front here next rest, hops = front ++ here :: next :: rest →
    sameOrigin here.request.url next.request.url = false →
    ∀ later ∈ next :: rest, Anonymous later.request

theorem credentialSafe_single (hop : Hop Address Context) :
    CredentialSafe [hop] := by
  intro front here next rest spelled
  have size := congrArg List.length spelled
  simp only [List.length_append, List.length_cons, List.length_nil] at size
  omega

theorem Chain.credentialSafe (chain : Chain seen hopsLeft hop events) :
    CredentialSafe (requests events) := by
  induction chain with
  | failed | looped | delivered => exact credentialSafe_single _
  | followed _ redirected chain ih =>
    intro front here next rest spelled different later member
    rcases front with _ | ⟨first, front⟩
    · -- The hop in front leaves its origin.
      obtain ⟨rfl, behind⟩ := List.cons.inj spelled
      obtain ⟨rest', starts⟩ := chain.requests_cons
      obtain ⟨rfl, _⟩ := List.cons.inj (starts.symm.trans behind)
      rw [← behind] at member
      exact (redirected.credentials different).of_subset
        (chain.headers_subset later member)
    · exact ih front here next rest (List.cons.inj spelled).2
        different later member

/-! ## The loop guard -/

def SameTarget (url url' : Url) : Prop :=
  sameOrigin url url' = true ∧ url.path = url'.path ∧ url.query = url'.query

/-- The guard stops only at a URL that an earlier hop has visited. -/
def GuardRight (events : List (RedirectEvent Address Context)) : Prop :=
  ∀ front (hop : Hop Address Context) rest, events = front ++
      .send hop :: .guard hop.request.url true :: rest →
    ∃ earlier, .send earlier ∈ front ∧
      SameTarget earlier.request.url hop.request.url

/-- The key of the hop is that of an earlier hop to another target. -/
def Confuses (earlier : List (Hop Address Context))
    (hop : Hop Address Context) : Prop :=
  ∃ before ∈ earlier, loopKey before.request.url = loopKey hop.request.url ∧
    ¬SameTarget before.request.url hop.request.url

theorem Chain.guard_seen (chain : Chain seen hopsLeft hop events)
    {front rest : List (RedirectEvent Address Context)}
    {last : Hop Address Context}
    (spelled : events = front ++
      .send last :: .guard last.request.url true :: rest) :
    loopKey last.request.url ∈ seen ∨ ∃ earlier, .send earlier ∈ front ∧
        loopKey earlier.request.url = loopKey last.request.url := by
  induction chain generalizing front with
  | failed =>
    rcases front with _ | ⟨first, _ | ⟨second, front⟩⟩ <;> simp at spelled
  | looped repeated =>
    rcases front with _ | ⟨first, _ | ⟨second, _ | ⟨third, front⟩⟩⟩
    · obtain ⟨same, _⟩ := List.cons.inj spelled
      obtain rfl := RedirectEvent.send.inj same
      exact .inl repeated
    all_goals simp at spelled
  | delivered =>
    rcases front with _ | ⟨first, _ | ⟨second, _ | ⟨third, front⟩⟩⟩ <;>
      simp at spelled
  | @followed seen hopsLeft hop next events _ _ _ ih =>
    rcases front with _ | ⟨first, _ | ⟨second, front⟩⟩
    · simp at spelled
    · simp at spelled
    · obtain ⟨rfl, behind⟩ := List.cons.inj spelled
      obtain ⟨_, behind⟩ := List.cons.inj behind
      rcases ih behind with inSeen | ⟨earlier, member, same⟩
      · rcases List.mem_cons.mp inSeen with here | before
        · exact .inr ⟨hop, List.mem_cons_self, here.symm⟩
        · exact .inl before
      · exact .inr ⟨earlier, List.mem_cons_of_mem _
          (List.mem_cons_of_mem _ member), same⟩

theorem Chain.guardRight (chain : Chain [] hopsLeft hop events)
    (clear : ∀ front hop rest, requests events = front ++ hop :: rest →
      ¬Confuses front hop) : GuardRight events := by
  intro front last rest spelled
  rcases chain.guard_seen spelled with none | ⟨earlier, member, same⟩
  · cases none
  · refine ⟨earlier, member, ?_⟩
    by_contra other
    refine clear (requests front) last (requests rest) ?_
      ⟨earlier, ?_, same, other⟩
    · rw [spelled, requests, List.filterMap_append]
      rfl
    · exact List.mem_filterMap.mpr ⟨.send earlier, member, rfl⟩

/-- Redirect following is bounded, calls back once and gives no credentials
to another origin; its guard is right where no hop is confused with an earlier
one. -/
theorem sendRedirecting_safe
    (answers : Nat → Hop Address Context → Option HttpResponse)
    (options : RedirectOptions Address Context)
    (hop : Hop Address Context) :
    let events := sendRedirecting answers options hop
    (0 ≤ options.maxRedirects →
      (requests events).length ≤ options.maxRedirects + 1) ∧
    (callbacks events).length = 1 ∧ CredentialSafe (requests events) ∧
    ((∀ front hop rest, requests events = front ++ hop :: rest →
      ¬Confuses front hop) → GuardRight events) := by
  have chain : Chain [] options.maxRedirects hop
      (sendRedirecting answers options hop) :=
    chain_runHops answers options 0 options.maxRedirects [] hop
  refine ⟨fun budget => ?_, chain.length_callbacks, chain.credentialSafe,
    chain.guardRight⟩
  have bound := chain.requests_le
  omega

def visit (url : String) : Hop Unit Unit where
  request := { method := .get, url := Url.parse (ascii url) }
  endpoint := ⟨(), 80⟩
  context := none

/-- `302 Found`. -/
def movedTo (location : String) : HttpResponse where
  status := 302
  headers := [⟨ascii "Location", ascii location⟩]

/-- The first answer redirects to `/ab`, the others to `/c`. -/
def ambiguousAnswers (index : Nat) (_ : Hop Unit Unit) : Option HttpResponse :=
  some (movedTo (if index = 0 then "/ab" else "/c"))

/-- `/a?b` and `/ab` have the same key, so the redirect to `/c` is not
followed. -/
theorem ambiguousAnswers_not_guardRight :
    sendRedirecting ambiguousAnswers {} (visit "http://h/a?b") =
      [.send (visit "http://h/a?b"),
        .guard (visit "http://h/a?b").request.url false,
        .send (visit "http://h/ab"),
        .guard (visit "http://h/ab").request.url true,
        .final (some (movedTo "/c"))] ∧
    ¬GuardRight (sendRedirecting ambiguousAnswers {}
      (visit "http://h/a?b")) := by
  refine (and_iff_left_of_imp fun events right => ?_).mpr (by decide +kernel)
  obtain ⟨earlier, member, _, path, _⟩ := right
    [.send (visit "http://h/a?b"),
      .guard (visit "http://h/a?b").request.url false]
    (visit "http://h/ab") [.final (some (movedTo "/c"))] events
  rcases List.mem_cons.mp member with first | second
  · obtain rfl := RedirectEvent.send.inj first
    exact absurd path (by decide)
  · cases List.mem_singleton.mp second

end Libnei.Http
