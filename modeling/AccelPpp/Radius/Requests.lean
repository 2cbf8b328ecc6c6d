import AccelPpp.Radius.Target

/-!
# RADIUS requests and their servers (`radius/serv.c`, `req.c`, `acct.c`, `auth.c`)

A server takes at most `req_limit` requests at a time. A request enters the server before it is
sent, or waits in one of the server's two queues, and exits when it is answered, given up or sent
again; the exit of one request wakes the next. Waking is a call to the context of the session that
owns the request (`req_wakeup`), since only that context touches the request. When the server fails
or is removed from the configuration, all that wait are called.

The machine has the servers, the requests, the sessions as owners of requests, and the pending
calls of all contexts; its events are what the contexts handle.

* A handler is one step; handlers of different contexts come in any order, and the pending calls of
  one context in theirs.
* Requests are numbered in the order of their allocation. A request that has been freed, or a server
  that has been removed, keeps its number.
* A socket that cannot be made and memory that cannot be had are inputs of an event (`SendOut`,
  `Attempt`), one for each turn of the loop in `rad_req_send`; an event whose inputs end before the
  loop does has not happened.
* A failed `assert`, a call to a freed request and a NULL session are recorded in `fault`, and
  nothing happens after that.
* The end of a session (`ap_session_terminate`) is an event of its own. All the places that call it
  do so last.

Left out are the statistics, the restoring of sessions, and when Accounting-On requests are made.
-/

namespace AccelPpp.Radius

open Function

/-! ### State -/

/-- What a request is for. It stands for the functions `recv`, `sent` and `timeout.expire`. -/
inductive Kind
  | auth
  /-- Accounting start. -/
  | start
  /-- Interim accounting. -/
  | interim
  /-- Accounting stop. -/
  | stop
  /-- Accounting-On and -Off. -/
  | on
  deriving DecidableEq

/-- `timeout.tpd`: NULL, or a timer that has expired, or one that is running. -/
inductive Timer
  | none
  | idle
  | armed
  deriving DecidableEq

/-- `hnd.tpd`: NULL, or a handler that is not enabled for reading, or one that is. -/
inductive Handler
  | none
  | off
  | on
  deriving DecidableEq

/-- `struct rad_req_t` -/
structure Req where
  type : ServType
  serv : ℕ
  /-- The queue it waits in: `req_queue[1]` when true. -/
  prio : Bool
  /-- `try` -/
  tries : ℕ
  active : Bool
  /-- `entry.next` is not NULL. -/
  linked : Bool
  kind : Kind
  /-- The session of `rpd`. -/
  ses : Option ℕ
  timer : Timer
  hnd : Handler
  target : Target
  /-- It has been allocated and not been freed. -/
  alive : Bool
  deriving DecidableEq

/-- `sent` with 0. The timer of an Accounting-On request is not started here. -/
def Req.sent (r : Req) : Req :=
  { r with hnd := .on, timer := if r.kind = .on then r.timer else .armed }

/-- How far a session has come. -/
inductive Phase
  | running
  /-- After `EV_SES_FINISHING`. -/
  | down
  /-- After `EV_SES_FINISHED`. -/
  | gone
  deriving DecidableEq

/-- `struct radius_pd_t` -/
structure Session where
  phase : Phase
  /-- `auth_ctx->req` -/
  auth : Option ℕ
  /-- `acct_req` -/
  acct : Option ℕ
  acctStarted : Bool
  deriving DecidableEq

/-- The functions that are called in a context. -/
inductive Func
  | wakeup
  | wakeupFailed
  | startDeferred
  deriving DecidableEq

/-- A pending call; `ctx` is a session's context or the default one. -/
structure PendingCall where
  ctx : Option ℕ
  func : Func
  req : ℕ
  deriving DecidableEq

/-- What ends the process. -/
inductive Fault
  | assert
  /-- A freed request is used. -/
  | freed
  /-- The session of a request without one is used. -/
  | noSession
  deriving DecidableEq

/-- The state of the RADIUS client. -/
structure Client where
  now : ℕ
  /-- `conf_max_try` -/
  maxTry : ℕ
  /-- `ap_shutdown` -/
  shutdown : Bool
  servers : ℕ → Server
  /-- `serv_list` -/
  list : List ℕ
  /-- The number of servers so far. -/
  nserv : ℕ
  reqs : ℕ → Req
  /-- The number of requests so far. -/
  nreq : ℕ
  sessions : ℕ → Session
  calls : List PendingCall
  fault : Option Fault

/-- What happens in one turn of `rad_req_send`: to the send, and to the copy of a secret. -/
structure Attempt where
  out : SendOut
  copy : Bool
  deriving DecidableEq

/-- What happens in `rad_req_send`: to the copy of a secret in a first failover, and in the
turns. -/
structure Env where
  copy : Bool
  turns : List Attempt
  deriving DecidableEq

namespace Client

/-! ### Updates -/

section

variable (c : Client) (q s i : ℕ) (out : SendOut) (env : Env)

def setReq (r : Req) : Client :=
  { c with reqs := update c.reqs i r }

def setServ (v : Server) : Client :=
  { c with servers := update c.servers s v }

def setSes (v : Session) : Client :=
  { c with sessions := update c.sessions q v }

/-- The server of a request. -/
def servOf : Server := c.servers (c.reqs i).serv

/-- The process ends, if it has not yet. -/
def crash (f : Fault) : Client := { c with fault := some (c.fault.getD f) }

/-- `assert` -/
def ensure (b : Bool) (f : Fault) : Client := if b then c else c.crash f

/-- `triton_context_call` in the context of a request. -/
def post (func : Func) (i : ℕ) : Client :=
  { c with calls := c.calls ++ [⟨(c.reqs i).ses, func, i⟩] }

/-- `triton_cancel_call`: every pending call of the function in the context, for whichever
request. -/
def cancelCall (ctx : Option ℕ) (func : Func) : Client :=
  { c with calls := c.calls.filter fun x ↦ ¬ (x.ctx = ctx ∧ x.func = func) }

/-- `list_del` of a request. -/
def unlink : Client :=
  { c with
    servers := fun s ↦
      { c.servers s with
        queue0 := (c.servers s).queue0.erase i
        queue1 := (c.servers s).queue1.erase i }
    reqs := update c.reqs i { c.reqs i with linked := false } }

/-- The requests that wait for a server, in the order in which they are woken. -/
def waitingFor : List ℕ := (c.servers s).queue0 ++ (c.servers s).queue1

/-- The loops that empty both queues and call every request. -/
def flush (func : Func) : Client :=
  { c with
    servers := update c.servers s { c.servers s with queue0 := [], queue1 := [] }
    reqs := fun j ↦ if j ∈ c.waitingFor s then { c.reqs j with linked := false } else c.reqs j
    calls := c.calls ++ (c.waitingFor s).map fun j ↦ ⟨(c.reqs j).ses, func, j⟩ }

/-! ### Servers -/

/-- A request begins or stops to count at a server: `active` and `req_cnt`. -/
def setActive (s i : ℕ) (active : Bool) : Client :=
  let c := c.setServ s
    { c.servers s with reqCnt := (c.servers s).reqCnt + if active then 1 else -1 }
  c.setReq i { c.reqs i with active := active }

/-- A request is taken out of the queue of a server: `list_del` and `queue_cnt`. -/
def dequeue (s i : ℕ) : Client :=
  let c := c.unlink i
  c.setServ s { c.servers s with queueCnt := (c.servers s).queueCnt - 1 }

/-- The part of `rad_server_req_exit` that wakes the next request. -/
def wakeNext : Client :=
  match c.waitingFor s with
  | [] => c
  | j :: _ => ((c.dequeue s j).setActive s j true).post .wakeup j

/-- The request no longer counts. -/
def release : Client := c.setActive (c.reqs i).serv i false

/-- `rad_server_req_exit` -/
def reqExit : Client :=
  if (c.servOf i).reqLimit = 0 then c
  else
    let c := c.ensure (c.reqs i).active .assert
    let c := c.release i
    let c := c.ensure (0 ≤ (c.servOf i).reqCnt) .assert
    if (c.servOf i).reqCnt < (c.servOf i).reqLimit then c.wakeNext (c.reqs i).serv else c

/-- The part of `rad_server_fail` that calls all that wait. -/
def failAll : Client :=
  let c := c.flush s .wakeupFailed
  c.setServ s { c.servers s with queueCnt := 0 }

/-- `rad_server_fail` -/
def serverFail : Client :=
  let v := c.servers s
  let c := c.setServ s
    { v with failTime := if v.failTime ≤ c.now then c.now + v.failTimeout else v.failTime }
  c.failAll s

/-- `rad_server_timeout` -/
def serverTimeout : Client :=
  if (c.servers s).failTimeout = 0 then c
  else
    let c := c.setServ s { c.servers s with timeoutCnt := (c.servers s).timeoutCnt + 1 }
    if (c.servers s).maxFail ≤ (c.servers s).timeoutCnt then c.serverFail s else c

/-- `rad_server_reply` -/
def serverReply : Client :=
  c.setServ s { c.servers s with timeoutCnt := 0 }

/-- `rad_server_req_cancel` -/
def reqCancel (full : Bool) : Client :=
  let c := if (c.reqs i).linked then c.dequeue (c.reqs i).serv i else c
  let c := c.cancelCall (c.reqs i).ses .wakeup
  if full then
    let c := if (c.reqs i).active then c.reqExit i else c
    c.setReq i { c.reqs i with timer := .none, hnd := .none }
  else c

/-- `rad_server_realloc`; it is false when there is no other server, or no memory. -/
def realloc (c : Client) (i : ℕ) (copy : Bool) : Client × Bool :=
  let r := c.reqs i
  match radServerGet c.servers c.list r.type (some r.serv) 0 0 c.now with
  | none => (c, false)
  | some s =>
    if copy then
      let target := r.target.realloc (c.servers s) r.type
      let c := c.setServ s ((c.servers s).addClient r.type 1)
      let c := c.setServ r.serv ((c.servers r.serv).addClient r.type (-1))
      (c.setReq i { r with serv := s, hnd := .none, target := target }, true)
    else (c, false)

/-! ### Sending -/

/-- `__rad_req_send` with 0 or 1, except for the call of `sent` with -1. -/
def sendNow : Client × ℤ :=
  let r := c.reqs i
  let (target, res, _) := r.target.send (c.servOf i) r.type out
  if res = 0 then (c.setReq i (Req.sent { r with target := target }), 0)
  else if res = -2 then (c, -2)
  else (c.setReq i { r with target := target, hnd := .none }, -1)

/-- The request waits for its server. -/
def enqueue : Client :=
  let r := c.reqs i
  let v := c.servOf i
  let c := c.setServ r.serv
    { v with
      queue0 := if r.prio then v.queue0 else v.queue0 ++ [i]
      queue1 := if r.prio then v.queue1 ++ [i] else v.queue1
      queueCnt := v.queueCnt + 1 }
  c.setReq i { r with linked := true, hnd := if r.hnd = .none then .none else .off }

/-- `rad_server_req_enter`, for a request whose `send` is set. -/
def reqEnter : Client × ℤ :=
  let v := c.servOf i
  if v.needFree ∨ c.now < v.failTime then (c, -1)
  else if v.reqLimit = 0 then c.sendNow i out
  else
    let c := c.ensure (¬ (c.reqs i).active) .assert
    let c := c.ensure (¬ (c.reqs i).linked) .assert
    if v.reqLimit ≤ v.reqCnt then (c.enqueue i, 0)
    else
      let (c, res) := (c.setActive (c.reqs i).serv i true).sendNow i out
      if res = 0 then (c, 0)
      else if res = -2 then ((c.release i).serverFail (c.reqs i).serv, -2)
      else (c.reqExit i, -1)

/-- The loop of `rad_req_send`; `none` when it has not ended yet. -/
def enterLoop (c : Client) (i : ℕ) : List Attempt → Option (Client × ℤ)
  | [] => none
  | t :: ts =>
    let (c, res) := c.reqEnter i t.out
    if 0 ≤ res then some (c, res)
    else
      let (c, ok) := c.realloc i t.copy
      if ok then c.enterLoop i ts else some (c, -1)

/-- The rest of `rad_req_send`, after a failover: the request enters its server, or is sent once
more when it has done so before. -/
def sendOn (turns : List Attempt) : Option (Client × ℤ) :=
  if (c.reqs i).active then turns.head?.map fun t ↦ c.sendNow i t.out else c.enterLoop i turns

/-- `rad_req_send` -/
def reqSend : Option (Client × ℤ) :=
  let tries := (c.reqs i).tries
  let c := c.setReq i { c.reqs i with tries := tries + 1 }
  if tries = c.maxTry then
    let c := if (c.reqs i).active then c.reqExit i else c
    let (c, ok) := c.realloc i env.copy
    if ok then (c.setReq i { c.reqs i with tries := 1 }).sendOn i env.turns else some (c, -1)
  else c.sendOn i env.turns

/-! ### Owners -/

/-- `rad_req_free` -/
def reqFree : Client :=
  let r := c.reqs i
  let c := c.ensure (¬ r.active) .assert
  let c := c.ensure (¬ r.linked) .assert
  let c := c.setServ r.serv ((c.servers r.serv).addClient r.type (-1))
  c.setReq i { r with alive := false, timer := .none, hnd := .none }

/-- `rad_auth_finalize` -/
def authFinalize : Client :=
  match (c.sessions q).auth with
  | none => c
  | some i => (c.reqFree i).setSes q { c.sessions q with auth := none }

/-- `acct_req = NULL` in the session of a request, if it has one. -/
def clearAcct (ses : Option ℕ) : Client :=
  match ses with
  | none => c
  | some q => c.setSes q { c.sessions q with acct := none }

/-- `rad_acct_stop_defer` -/
def stopDefer : Client :=
  match (c.sessions q).acct with
  | none => c.crash .noSession
  | some i =>
    let c := c.reqCancel i true
    let c := c.setSes q { c.sessions q with acct := none }
    let c := c.setReq i { c.reqs i with ses := none }
    c.post .startDeferred i

/-- `rad_auth_sent` with -1 -/
def authSentFailed : Client :=
  match (c.reqs i).ses with
  | some q => c.authFinalize q
  | none => c.crash .noSession

/-- `rad_acct_stop_sent` with -1 -/
def acctStopSentFailed : Client :=
  if c.shutdown then (c.reqFree i).clearAcct (c.reqs i).ses
  else
    match (c.reqs i).ses with
    | some q => c.stopDefer q
    | none => c.setReq i { c.reqs i with timer := .armed }

/-- `sent` with -1, by the kind of the request. The others terminate the session, if anything. -/
def sentFailed : Client :=
  match (c.reqs i).kind with
  | .auth => c.authSentFailed i
  | .start => c
  | .interim => c
  | .stop => c.acctStopSentFailed i
  | .on => c

/-- `__rad_req_send` with -1 -/
def sendFailed : Option Client :=
  let c := if (c.reqs i).active then c.setReq i { c.reqs i with tries := c.maxTry } else c
  (c.reqSend i env).map fun (c, res) ↦ if res = 0 then c else c.sentFailed i

/-- `req_wakeup`; `out` is what happens to its own send. -/
def reqWakeup : Option Client :=
  let v := c.servOf i
  if (c.reqs i).active then
    if c.now < v.failTime ∨ v.needFree then (c.release i).sendFailed i env
    else
      let (c, res) := c.sendNow i out
      if res = 0 then some c
      else if res = -2 then ((c.release i).serverFail (c.reqs i).serv).sendFailed i env
      else some (c.sentFailed i)
  else some c

/-- `rad_auth_recv` -/
def authRecv : Client :=
  match (c.reqs i).ses with
  | some q => (c.setReq i { c.reqs i with timer := .none }).authFinalize q
  | none => c.crash .noSession

section

variable (interim : Bool) (mode : AcctTimeout) (env : Env)

/-- `rad_acct_start_recv`; `interim` says whether interim accounting is wanted. -/
def acctStartRecv : Client :=
  match (c.reqs i).ses with
  | some q =>
    let r := { c.reqs i with timer := .none, hnd := .none, target := (c.reqs i).target.close }
    let c := c.setSes q { c.sessions q with acctStarted := true }
    if interim then c.setReq i { r with kind := .interim, prio := true }
    else ((c.setReq i r).reqFree i).clearAcct (some q)
  | none => c.crash .noSession

/-- `rad_acct_recv` -/
def acctRecv : Client :=
  c.setReq i { c.reqs i with timer := .none, hnd := .none, target := (c.reqs i).target.close }

/-- `rad_acct_stop_recv` -/
def acctStopRecv : Client := (c.reqFree i).clearAcct (c.reqs i).ses

/-- `recv`, by the kind of the request. That of Accounting-On frees it. -/
def recv : Client :=
  match (c.reqs i).kind with
  | .auth => c.authRecv i
  | .start => c.acctStartRecv i interim
  | .interim => c.acctRecv i
  | .stop => c.acctStopRecv i
  | .on => c.reqFree i

/-- `rad_req_read`, when there is a reply. -/
def reqRead : Client :=
  let c := c.serverReply (c.reqs i).serv
  let c := if (c.reqs i).active then c.reqExit i else c.reqCancel i false
  c.recv i interim

/-- `start_deferred`; `reply` says whether a reply is there. -/
def startDeferred (reply : Bool) : Client :=
  let r := c.reqs i
  if r.target.fd = none then c.setReq i { r with timer := .armed }
  else
    let c := c.setReq i { r with hnd := .on }
    if reply then c.reqRead i false else c.setReq i { c.reqs i with timer := .armed }

/-- What `rad_acct_timeout` does about the time that has passed. -/
inductive AcctTimeout
  /-- `conf_acct_timeout` is 0. -/
  | drop
  /-- Too much has passed: the session is terminated. -/
  | terminate
  | retry
  deriving DecidableEq

/-- `rad_auth_timeout` -/
def authTimeout : Option Client :=
  ((c.serverTimeout (c.reqs i).serv).reqSend i env).map fun (c', res) ↦
    if res = 0 then c'
    else
      match (c.reqs i).ses with
      | some q => c'.authFinalize q
      | none => c'.crash .noSession

/-- `rad_acct_start_timeout` -/
def acctStartTimeout : Option Client :=
  ((c.serverTimeout (c.reqs i).serv).reqSend i env).map Prod.fst

/-- `rad_acct_timeout` -/
def acctTimeout : Option Client :=
  let c := (c.reqExit i).serverTimeout (c.reqs i).serv
  match mode with
  | .drop =>
    some (c.setReq i { c.reqs i with
      timer := .none, hnd := .none, target := (c.reqs i).target.close })
  | .terminate => some (c.setReq i { c.reqs i with timer := .none })
  | .retry => ((c.setReq i { c.reqs i with tries := 0 }).reqSend i env).map Prod.fst

/-- `rad_acct_stop_timeout` -/
def acctStopTimeout : Option Client :=
  let r := c.reqs i
  let c := if r.active then (c.serverTimeout r.serv).reqExit i else c
  if c.maxTry ≤ r.tries then some ((c.reqFree i).clearAcct r.ses)
  else
    (c.reqSend i env).map fun (c, res) ↦
      if res = 0 then c
      else if c.shutdown then (c.reqFree i).clearAcct r.ses
      else c.setReq i { c.reqs i with timer := .armed }

/-- `acct_on_timeout` -/
def acctOnTimeout : Option Client :=
  let r := c.reqs i
  let c := c.setReq i { r with tries := r.tries + 1 }
  if r.tries = c.maxTry then some (c.reqFree i)
  else env.turns.head?.map fun t ↦ (c.sendNow i t.out).1

/-- `timeout.expire`, by the kind of the request. -/
def expire : Option Client :=
  match (c.reqs i).kind with
  | .auth => c.authTimeout i env
  | .start => c.acctStartTimeout i env
  | .interim => c.acctTimeout i mode env
  | .stop => c.acctStopTimeout i env
  | .on => c.acctOnTimeout i env

/-- The timer of a request has expired. That of an Accounting-On request is periodic. -/
def timeout : Option Client :=
  let r := c.reqs i
  if r.timer = .armed then
    (c.setReq i { r with timer := if r.kind = .on then .armed else .idle }).expire i mode env
  else some c

end

/-- A new request at its server. -/
def addReq (r : Req) : Client :=
  let c := c.setServ r.serv ((c.servers r.serv).addClient r.type 1)
  { c.setReq c.nreq r with nreq := c.nreq + 1 }

/-- A request of a session, as `rad_req_alloc` makes it at the server `s`. -/
def sesReq (type : ServType) (kind : Kind) (prio : Bool) (s : ℕ) : Req where
  type := type
  serv := s
  prio := prio
  tries := 0
  active := false
  linked := false
  kind := kind
  ses := some q
  timer := .none
  hnd := .none
  target := World.allocTarget (c.servers s) type
  alive := true

/-- `rad_req_alloc`, with the server chosen for the request. -/
def allocReq (type : ServType) (kind : Kind) (prio : Bool) : Option Client :=
  (radServerGet c.servers c.list type none 0 0 c.now).map fun s ↦
    c.addReq (c.sesReq q type kind prio s)

/-- `rad_auth_pap` and the like, with what `rad_pwdb_check` does when they fail. A session has one
authentication at a time. -/
def authStart : Option Client :=
  if (c.sessions q).phase = .running ∧ (c.sessions q).auth = none then
    match c.allocReq q .auth .auth false with
    | none => some c
    | some c' =>
      let i := c.nreq
      let c := c'.setSes q { c'.sessions q with auth := some i }
      (c.reqSend i env).map fun (c, res) ↦ if res = 0 then c else c.authFinalize q
  else some c

/-- `__rad_acct_start`. The code stores `acct_req` after the send, which does not look at it. -/
def acctStart : Option Client :=
  if (c.sessions q).phase = .running ∧ (c.sessions q).acct = none then
    match c.allocReq q .acct .start false with
    | none => some c
    | some c' =>
      let i := c.nreq
      let c := c'.setSes q { c'.sessions q with acct := some i }
      (c.reqSend i env).map fun (c, res) ↦
        if res = 0 then c else (c.reqFree i).clearAcct (some q)
  else some c

/-- `rad_acct_interim_update`, as far as the request goes. -/
def interimUpdate : Option Client :=
  match (c.sessions q).acct with
  | none => some c
  | some i =>
    if (c.sessions q).phase ≠ .running ∨ (c.reqs i).linked ∨ (c.reqs i).timer ≠ .none then some c
    else ((c.setReq i { c.reqs i with tries := 0 }).reqSend i env).map Prod.fst

/-- The end of `rad_acct_stop`: the request is sent, or deferred. -/
def acctStopSend (q i : ℕ) (env : Env) : Option Client :=
  (c.reqSend i env).map fun (c, res) ↦ if res = 0 then c else c.stopDefer q

/-- `rad_acct_stop`, in a session that has been running until now. -/
def acctStop : Option Client :=
  match (c.sessions q).acct with
  | some i =>
    let c := c.reqCancel i true
    let c := c.setSes q { c.sessions q with phase := .down }
    (c.setReq i { c.reqs i with tries := 0, kind := .stop }).acctStopSend q i env
  | none =>
    let c := c.setSes q { c.sessions q with phase := .down }
    match c.allocReq q .acct .stop true with
    | none => some c
    | some c' => (c'.setSes q { c'.sessions q with acct := some c.nreq }).acctStopSend q c.nreq env

/-- The authentication of a session that ends is given up. -/
def authCancel : Client :=
  match (c.sessions q).auth with
  | none => c
  | some i => ((c.reqCancel i true).reqFree i).setSes q { c.sessions q with auth := none }

/-- `ses_finishing` -/
def finishing : Option Client :=
  if (c.sessions q).phase = .running then
    let c := c.authCancel q
    if (c.sessions q).acctStarted ∨ (c.sessions q).acct ≠ none then c.acctStop q env
    else some (c.setSes q { c.sessions q with phase := .down })
  else some c

/-- `ses_finished` -/
def finished : Client :=
  if (c.sessions q).phase = .down then
    let c := c.authCancel q
    let c := c.setSes q { c.sessions q with phase := .gone }
    match (c.sessions q).acct with
    | none => c
    | some i =>
      if (c.sessions q).acctStarted then c.stopDefer q
      else ((c.reqCancel i true).reqFree i).clearAcct (some q)
  else c

/-- The request of `send_acct_on`. -/
def onReq : Req where
  type := .acct
  serv := s
  prio := false
  tries := 1
  active := false
  linked := false
  kind := .on
  ses := none
  timer := .none
  hnd := .none
  target := Target.acctOn (c.servers s)
  alive := true

/-- `send_acct_on` -/
def acctOn : Client :=
  if s < c.nserv then
    let i := c.nreq
    let c := c.addReq (c.onReq s)
    let (c, res) := c.sendNow i out
    if res = 0 then c.setReq i { c.reqs i with timer := .armed } else c.reqFree i
  else c

/-! ### Configuration -/

/-- `__add_server`: a server that is there gets the new settings, another is added. -/
def addServer (v : Server) : Client :=
  match c.list.find? fun s ↦ (c.servers s).key = v.key with
  | some s =>
    c.setServ s
      { c.servers s with
        failTimeout := v.failTimeout
        reqLimit := v.reqLimit
        maxFail := v.maxFail
        needFree := false
        secret := v.secret }
  | none =>
    let c := c.setServ c.nserv
      { v with
        reqCnt := 0, queueCnt := 0, queue0 := [], queue1 := [], authCnt := 0, acctCnt := 0
        failTime := 0, timeoutCnt := 0, needFree := false }
    { c with list := c.list ++ [c.nserv], nserv := c.nserv + 1 }

/-- A server is taken out of `serv_list`. The requests that wait for it are called with
`req_wakeup`, in the context of their session, which is not looked for first. -/
def removeServer : Client :=
  let c := c.ensure ((c.waitingFor s).all fun i ↦ (c.reqs i).ses.isSome) .noSession
  let c := c.flush s .wakeup
  { c with list := c.list.erase s }

/-- The servers before a reload. -/
def markServers : Client :=
  { c with servers := fun s ↦
      if s ∈ c.list then { c.servers s with needFree := true } else c.servers s }

/-- The end of a reload: what has not been found again is removed. -/
def removeServers : Client :=
  (c.list.filter fun s ↦ (c.servers s).needFree).foldl removeServer c

/-- `load_config`, with the servers of the options `server`, that of the old options, and
`conf_max_try`. -/
def reload (confs olds : List Server) (maxTry : ℕ) : Client :=
  let c := confs.foldl addServer c.markServers
  let c := olds.foldl addServer c.removeServers
  { c with maxTry := maxTry }

end

end Client

/-! ### Events -/

/-- What the contexts handle. -/
inductive ClientEvent
  | tick (d : ℕ)
  | shutdown
  | authStart (q : ℕ) (env : Env)
  | acctStart (q : ℕ) (env : Env)
  | interimUpdate (q : ℕ) (env : Env)
  | finishing (q : ℕ) (env : Env)
  | finished (q : ℕ)
  | acctOn (s : ℕ) (out : SendOut)
  | timeout (i : ℕ) (mode : Client.AcctTimeout) (env : Env)
  | reply (i : ℕ) (interim : Bool)
  /-- The first pending call of a context. -/
  | call (ctx : Option ℕ) (out : SendOut) (env : Env) (reply : Bool)
  | reload (confs olds : List Server) (maxTry : ℕ)

namespace Client

/-- The first pending call of a context. -/
def firstCall (c : Client) (ctx : Option ℕ) : Option PendingCall :=
  c.calls.find? fun x ↦ x.ctx = ctx

/-- A pending call is made. -/
def runCall (c : Client) (x : PendingCall) (out : SendOut) (env : Env) (reply : Bool) :
    Option Client :=
  let c := { c with calls := c.calls.erase x }
  if (c.reqs x.req).alive then
    match x.func with
    | .wakeup => c.reqWakeup x.req out env
    | .wakeupFailed => c.sendFailed x.req env
    | .startDeferred => some (c.startDeferred x.req reply)
  else some (c.crash .freed)

/-- What an event does; `none` when it has not ended. -/
def handle (c : Client) : ClientEvent → Option Client
  | .tick d => some { c with now := c.now + d }
  | .shutdown => some { c with shutdown := true }
  | .authStart q env => c.authStart q env
  | .acctStart q env => c.acctStart q env
  | .interimUpdate q env => c.interimUpdate q env
  | .finishing q env => c.finishing q env
  | .finished q => some (c.finished q)
  | .acctOn s out => some (c.acctOn s out)
  | .timeout i mode env => c.timeout i mode env
  | .reply i interim => some (if (c.reqs i).hnd = .on then c.reqRead i interim else c)
  | .call ctx out env reply =>
    match c.firstCall ctx with
    | none => some c
    | some x => c.runCall x out env reply
  | .reload confs olds maxTry => some (c.reload confs olds maxTry)

/-- One event. Nothing happens once the process has ended. -/
def step (c : Client) (e : ClientEvent) : Client :=
  if c.fault = none then (c.handle e).getD c else c

/-- The client before its configuration is loaded. -/
def initial : Client where
  now := 0
  maxTry := 0
  shutdown := false
  servers _ :=
    { ipv4 := true, addr := 0, addr6 := 0, secret := [], authPort := 0, acctPort := 0, weight := 0
      backup := false, reqLimit := 0, failTimeout := 0, maxFail := 0, reqCnt := 0, queueCnt := 0
      queue0 := [], queue1 := [], authCnt := 0, acctCnt := 0, failTime := 0, timeoutCnt := 0
      needFree := false }
  list := []
  nserv := 0
  reqs _ :=
    { type := .auth, serv := 0, prio := false, tries := 0, active := false, linked := false
      kind := .auth, ses := none, timer := .none, hnd := .none
      target := ⟨0, 0, 0, none, none, false⟩, alive := false }
  nreq := 0
  sessions _ := ⟨.running, none, none, false⟩
  calls := []
  fault := none

end Client

end AccelPpp.Radius
