import Libnei.Http.Message
import Libnei.Url.Resolve

/-!
# Redirects

`ComputeRedirect` (`redirect_handler.cpp`) and `HttpClient::SendRedirecting`
(`http_client.cpp`).  Every `Send` of the chain is answered once, with a
response or with null; what the servers, the resolver and the provider of SSL
contexts answer is arbitrary.
-/

namespace Libnei.Http

/-! ## The decision -/

def isRedirectStatus (code : Int) : Bool :=
  code == 301 || code == 302 || code == 303 || code == 307 || code == 308

structure RedirectDecision where
  follow : Bool := false
  target : Url := {}
  method : HttpMethod := .unknown
  methodChanged : Bool := false
  statusCode : Int := 0

def computeRedirect (response : HttpResponse) (originalUrl : Url)
    (originalMethod : HttpMethod) (remainingHops : Int) :
    Option RedirectDecision :=
  let code := response.status
  let location := getHeaderValue response.headers (ascii "Location")
  let resolved := originalUrl.resolve location
  if remainingHops ≤ 0 then none
  else if !isRedirectStatus code then none
  else if location.isEmpty then none
  else if !resolved.valid ||
      (resolved.scheme != ascii "http" &&
        resolved.scheme != ascii "https") || resolved.host.isEmpty then
    none
  else if (code == 301 || code == 302 || code == 303) &&
      (originalMethod != .get && originalMethod != .head) then
    some
      { follow := true
        target := resolved
        method := .get
        methodChanged := true
        statusCode := code }
  else
    some
      { follow := true
        target := resolved
        method := originalMethod
        statusCode := code }

/-! ## The chain -/

def eraseHeaders (headers : HttpHeaders) (drop : List Bytes) : HttpHeaders :=
  headers.filter fun header =>
    !drop.any (equalsCaseInsensitiveASCII header.name)

structure IPEndPoint (Address : Type) where
  address : Address
  port : Nat
deriving DecidableEq

/-- `RedirectOptions`; the resolver may answer differently at each hop. -/
structure RedirectOptions (Address Context : Type) where
  maxRedirects : Int := 10
  resolver : Option (Nat → Bytes → List Address) := none
  sslContextProvider : Option (Url → Option Context) := none

/-- The arguments of one `Send`; a null context is `none`. -/
structure Hop (Address Context : Type) where
  request : HttpRequest
  endpoint : IPEndPoint Address
  context : Option Context
deriving DecidableEq

/-- What can be observed of a chain. -/
inductive RedirectEvent (Address Context : Type)
  | send (hop : Hop Address Context)
  /-- The loop guard looks at a URL; it stops the chain at a repeated one. -/
  | guard (url : Url) (repeated : Bool)
  | final (response : Option HttpResponse)
deriving DecidableEq

/-- What the callback of a hop does last. -/
inductive Continuation (Address Context : Type)
  | deliver (response : Option HttpResponse)
  | send (next : Hop Address Context)

variable {Address Context : Type}

def sameOrigin (url target : Url) : Bool :=
  equalsCaseInsensitiveASCII url.host target.host &&
    equalsCaseInsensitiveASCII url.scheme target.scheme &&
      url.port == target.port

/-- The key of the loop guard. -/
def loopKey (url : Url) : Bytes := url.origin ++ url.path ++ url.query

def redirectedRequest (request : HttpRequest)
    (decision : RedirectDecision) : HttpRequest :=
  let next :=
    { request with url := decision.target, method := decision.method }
  if decision.methodChanged then
    { next with
      body := []
      headers := eraseHeaders next.headers [ascii "Content-Length",
        ascii "Content-Type", ascii "Transfer-Encoding"] }
  else next

/-- A hop to the same origin, or to another one that is resolved first. -/
def followRedirect (options : RedirectOptions Address Context) (index : Nat)
    (hop : Hop Address Context) (response : HttpResponse)
    (decision : RedirectDecision) : Continuation Address Context :=
  let next := redirectedRequest hop.request decision
  if sameOrigin hop.request.url decision.target then
    .send { hop with request := next }
  else
    let next :=
      { next with
        headers := eraseHeaders next.headers
          [ascii "Authorization", ascii "Cookie"] }
    match options.resolver with
    | none => .deliver (some response)
    | some resolve =>
        let port :=
          if decision.target.port != 0 then decision.target.port
          else if equalsCaseInsensitiveASCII decision.target.scheme
            (ascii "https") then 443
          else 80
        match resolve index decision.target.host with
        | [] => .deliver none
        | address :: _ =>
            let provided := options.sslContextProvider.bind fun provider =>
              provider decision.target
            .send
              { request := next
                endpoint := ⟨address, port⟩
                context := provided <|> hop.context }

theorem remainingHops_pos {response : HttpResponse} {url : Url}
    {method : HttpMethod} {hopsLeft : Int} {decision : RedirectDecision}
    (follows : computeRedirect response url method hopsLeft = some decision) :
    0 < hopsLeft := by
  by_contra exhausted
  rw [computeRedirect, if_pos (Int.not_lt.mp exhausted)] at follows
  cases follows

/-- The recursive hop driver, with `hops_left` and `seen`. -/
def runHops (answers : Nat → Hop Address Context → Option HttpResponse)
    (options : RedirectOptions Address Context) (index : Nat)
    (hopsLeft : Int) (seen : List Bytes) (hop : Hop Address Context) :
    List (RedirectEvent Address Context) :=
  let url := hop.request.url
  .send hop ::
    match answers index hop with
    | none => [.final none]
    | some response =>
        if loopKey url ∈ seen then
          [.guard url true, .final (some response)]
        else
          .guard url false ::
            match _ : computeRedirect response url hop.request.method
                hopsLeft with
            | none => [.final (some response)]
            | some decision =>
                if !decision.follow then [.final (some response)]
                else
                  match followRedirect options index hop response
                      decision with
                  | .deliver result => [.final result]
                  | .send next =>
                      runHops answers options (index + 1) (hopsLeft - 1)
                        (loopKey url :: seen) next
termination_by hopsLeft.toNat
decreasing_by
  have positive := remainingHops_pos (by assumption)
  omega

/-- `HttpClient::SendRedirecting`. -/
def sendRedirecting (answers : Nat → Hop Address Context → Option HttpResponse)
    (options : RedirectOptions Address Context)
    (hop : Hop Address Context) : List (RedirectEvent Address Context) :=
  runHops answers options 0 options.maxRedirects [] hop

end Libnei.Http
