import Folio.Artifact
import Folio.Catalogue
import Folio.Filters

set_option autoImplicit false

/-! # Providers

A provider gives artifacts by their slugs. It keeps what it has loaded, and callers who ask for a page
that is being loaded share the load. What is to be done next waits in a queue and is done in turns:

* a caller looks into the cache, joins the load of its slug, or starts one;
* a load finds the key of its slug and calls the loader, which answers at once or later; when it has
  its answer it is settled first, which moves it from the loads in flight to the cache, and then
  delivered to its callers in the order in which they joined;
* a collection asks for all slugs of the catalogue and ends with the first failure or with all artifacts
  that pass its filters.

A caller can be cancelled without the load, and a load can be invalidated without its callers: it is
delivered then, but not kept. -/

namespace Folio

/-- Why an artifact is not loaded. -/
inductive LoadError (ε : Type) where
  | notFound (cause : NotFound)
  | template (cause : TemplateError)
  | loader (cause : ε)
deriving Repr

/-- The text that reports the cause. -/
def LoadError.message {ε : Type} (loaderMessage : ε → String) : LoadError ε → String
  | notFound cause => cause.message
  | template cause => cause.message
  | loader cause => loaderMessage cause

/-- How a caller ends. -/
inductive Outcome (ε α : Type) where
  | done (a : α)
  | failed (cause : LoadError ε)
  | cancelled
deriving Repr

/-- The outcome that a load has for its callers. -/
def Outcome.ofResult {ε α : Type} : Except (LoadError ε) α → Outcome ε α
  | .ok a => .done a
  | .error e => .failed e

/-! ## Parts of a provider -/

/-- How far a load is. -/
inductive LoadStage (ε : Type) where
  | starting
  /-- The loader for a key has been called, after so many calls before, and will answer later. -/
  | waiting (key : String) (number : Nat)
  | answered (result : Except ε Artifact)
  | finished (result : Except (LoadError ε) Artifact)
deriving Repr

/-- A load that callers share. -/
structure Load (ε : Type) where
  slug : String
  stage : LoadStage ε := .starting
  /-- The callers who have joined, in order. -/
  callers : List Nat
deriving Repr

/-- How far a caller is. -/
inductive CallerStage (ε : Type) where
  | starting
  | waiting (load : Nat)
  /-- It is decided how the caller ends, but it does not know yet. -/
  | ending (outcome : Outcome ε Artifact)
  | finished (outcome : Outcome ε Artifact)
deriving Repr

/-- A caller who asks for a page. -/
structure Caller (ε : Type) where
  slug : String
  /-- The collection for which the caller asks. -/
  collection : Option Nat := none
  stage : CallerStage ε := .starting
deriving Repr

/-- The artifact with which a caller has ended. -/
def Caller.artifact? {ε : Type} (c : Caller ε) : Option Artifact :=
  match c.stage with
  | .finished (.done a) => some a
  | _ => none

/-- How a collection ends. -/
inductive CollectOutcome (ε : Type) where
  | done (artifacts : List Artifact)
  | failed (cause : LoadError ε)
  /-- A header that cannot be matched against the filters. -/
  | unmatched (cause : ContentFilters.TagsError)
  | cancelled
deriving Repr

/-- How far a collection is. -/
inductive CollectionStage (ε : Type) where
  | starting
  /-- Some callers ask for it, and so many of them have not reported. -/
  | gathering (callers : List Nat) (left : Nat)
  | ending (outcome : CollectOutcome ε)
  | finished (outcome : CollectOutcome ε)
deriving Repr

/-- How a collection is to be cancelled. -/
inductive Cancelling where
  | no
  /-- Its callers have been cancelled; a failure that was reported first still counts. -/
  | callers
  /-- All its callers had ended; it is cancelled whatever they report. -/
  | always
deriving Repr, DecidableEq

/-- Someone who asks for all pages. -/
structure Collection (ε : Type) where
  filters : Option ContentFilters
  stage : CollectionStage ε := .starting
  cancelling : Cancelling := .no
deriving Repr

/-- What can be done next. -/
inductive Task where
  | load (load : Nat)
  | settle (load : Nat)
  | deliver (load caller : Nat)
  | caller (caller : Nat)
  /-- A caller reports to its collection. -/
  | report (collection caller : Nat)
  | collection (collection : Nat)
deriving Repr, DecidableEq

/-- What a loader says when it is called. -/
inductive Answer (ε : Type) where
  | now (result : Except ε Artifact)
  | later
deriving Repr

/-- A provider with all loads, callers and collections that there have been, by their numbers. -/
structure Provider (ε : Type) where
  catalogue : Catalogue
  cache : List (String × Artifact) := []
  /-- The loads that callers can join, by their slugs. -/
  inflight : List (String × Nat) := []
  loads : List (Load ε) := []
  callers : List (Caller ε) := []
  collections : List (Collection ε) := []
  ready : List Task := []
  /-- How often the loader for a key has been called. -/
  calls : List (String × Nat) := []
deriving Repr

namespace Provider

variable {ε : Type}

/-! ## Tables -/

/-- A table without an entry. -/
def without {α : Type} (key : String) (table : List (String × α)) : List (String × α) :=
  table.filter fun e => e.1 != key

/-- A table with an entry. -/
def withEntry {α : Type} (key : String) (value : α) (table : List (String × α)) :
    List (String × α) :=
  without key table ++ [(key, value)]

/-- Whether a page is in the cache. -/
def isCached (p : Provider ε) (slug : String) : Bool :=
  (p.cache.lookup slug).isSome

/-- How often the loader for a key has been called. -/
def callsOf (p : Provider ε) (key : String) : Nat :=
  (p.calls.lookup key).getD 0

/-- The provider with more to do, after what it has to do already. -/
def enqueue (p : Provider ε) (tasks : List Task) : Provider ε :=
  { p with ready := p.ready ++ tasks }

/-- The provider with a load at another stage. -/
def setLoad (p : Provider ε) (id : Nat) (stage : LoadStage ε) : Provider ε :=
  { p with loads := p.loads.modify id fun l => { l with stage := stage } }

/-- The provider with a caller at another stage. -/
def setCaller (p : Provider ε) (id : Nat) (stage : CallerStage ε) : Provider ε :=
  { p with callers := p.callers.modify id fun c => { c with stage := stage } }

/-- The provider with a collection at another stage. -/
def setCollection (p : Provider ε) (id : Nat) (stage : CollectionStage ε) : Provider ε :=
  { p with collections := p.collections.modify id fun c => { c with stage := stage } }

/-! ## Requests -/

/-- Someone asks for a page. -/
def request (p : Provider ε) (slug : String) : Provider ε :=
  let q : Provider ε := { p with callers := p.callers ++ [{ slug := slug }] }
  q.enqueue [.caller p.callers.length]

/-- Someone asks for all pages that pass some filters. -/
def requestAll (p : Provider ε) (filters : Option ContentFilters) : Provider ε :=
  let q : Provider ε := { p with collections := p.collections ++ [{ filters := filters }] }
  q.enqueue [.collection p.collections.length]

/-- Drop a page, or all pages, from the cache and from the loads that can be joined. -/
def invalidate (p : Provider ε) : Option String → Provider ε
  | some slug => { p with cache := without slug p.cache, inflight := without slug p.inflight }
  | none => { p with cache := [], inflight := [] }

/-- Drop everything. -/
def close (p : Provider ε) : Provider ε :=
  p.invalidate none

/-! ## Loads -/

/-- A load has its result. -/
def finishLoad (p : Provider ε) (id : Nat) (load : Load ε) (result : Except (LoadError ε) Artifact) :
    Provider ε :=
  (p.setLoad id (.finished result)).enqueue (.settle id :: load.callers.map (.deliver id))

/-- The key of a page, or why there is none. -/
def resolve (p : Provider ε) (slug : String) : Except (LoadError ε) String := do
  match ← (p.catalogue.keyFor slug).mapError .template with
  | some key => return key
  | none => throw (.notFound (.make slug (← p.catalogue.slugs.mapError .template)))

/-- A load starts: it calls the loader for the key of its slug. -/
def startLoad (answer : String → Nat → Answer ε) (p : Provider ε) (id : Nat) (load : Load ε) :
    Provider ε :=
  match p.resolve load.slug with
  | .error e => p.finishLoad id load (.error e)
  | .ok key =>
    let n := p.callsOf key
    let p := { p with calls := withEntry key (n + 1) p.calls }
    match answer key n with
    | .now result => p.finishLoad id load (result.mapError .loader)
    | .later => p.setLoad id (.waiting key n)

/-- A turn of a load. -/
def turnLoad (answer : String → Nat → Answer ε) (p : Provider ε) (id : Nat) : Provider ε :=
  match p.loads[id]? with
  | none => p
  | some load =>
    match load.stage with
    | .starting => p.startLoad answer id load
    | .answered result => p.finishLoad id load (result.mapError .loader)
    | _ => p

/-- Settle a load: if it can still be joined it leaves the loads in flight, and what it has loaded
    goes into the cache. -/
def settle (p : Provider ε) (id : Nat) : Provider ε :=
  match p.loads[id]? with
  | some ⟨slug, .finished result, _⟩ =>
    if p.inflight.lookup slug = some id then
      let p := { p with inflight := without slug p.inflight }
      match result with
      | .ok a => { p with cache := withEntry slug a p.cache }
      | .error _ => p
    else p
  | _ => p

/-- The loader of a load answers. -/
def receive (p : Provider ε) (id : Nat) (result : Except ε Artifact) : Provider ε :=
  match p.loads[id]? with
  | some ⟨_, .waiting _ _, _⟩ => (p.setLoad id (.answered result)).enqueue [.load id]
  | _ => p

/-- The number of the call of the loader for a key that a load waits for. -/
def Load.callFor? (key : String) (l : Load ε) : Option Nat :=
  match l.stage with
  | .waiting k n => if k = key then some n else none
  | _ => none

/-- The loads that wait for the loader of a key, oldest first, with the numbers of their calls. -/
def waitingFor (p : Provider ε) (key : String) : List (Nat × Nat) :=
  (List.range p.loads.length).filterMap fun id =>
    ((p.loads[id]?).bind (Load.callFor? key)).map fun n => (id, n)

/-! ## Callers -/

/-- A caller ends, and reports to its collection if it asked for one. -/
def finishCaller (p : Provider ε) (id : Nat) (caller : Caller ε) (outcome : Outcome ε Artifact) :
    Provider ε :=
  (p.setCaller id (.finished outcome)).enqueue (match caller.collection with
    | some collection => [.report collection id]
    | none => [])

/-- A caller joins a load. A load that has its result gives it at once. -/
def join (p : Provider ε) (id : Nat) (caller : Caller ε) (loadId : Nat) : Provider ε :=
  match p.loads[loadId]? with
  | some ⟨_, .finished result, _⟩ => p.finishCaller id caller (.ofResult result)
  | _ =>
    let add (l : Load ε) : Load ε := { l with callers := l.callers ++ [id] }
    let q : Provider ε := { p with loads := p.loads.modify loadId add }
    q.setCaller id (.waiting loadId)

/-- A caller starts a load. -/
def initiate (p : Provider ε) (id : Nat) (slug : String) : Provider ε :=
  let loadId := p.loads.length
  let q : Provider ε :=
    { p with
      loads := p.loads ++ [{ slug := slug, callers := [id] }]
      inflight := withEntry slug loadId p.inflight }
  (q.setCaller id (.waiting loadId)).enqueue [.load loadId]

/-- A caller starts: it takes the page from the cache, or joins its load, or starts one. -/
def startCaller (p : Provider ε) (id : Nat) (caller : Caller ε) : Provider ε :=
  match p.cache.lookup caller.slug with
  | some a => p.finishCaller id caller (.done a)
  | none =>
    match p.inflight.lookup caller.slug with
    | some loadId => p.join id caller loadId
    | none => p.initiate id caller.slug

/-- A turn of a caller. -/
def turnCaller (p : Provider ε) (id : Nat) : Provider ε :=
  match p.callers[id]? with
  | none => p
  | some caller =>
    match caller.stage with
    | .starting => p.startCaller id caller
    | .ending outcome => p.finishCaller id caller outcome
    | _ => p

/-- Deliver a load to a caller, if the caller still waits for it. -/
def deliver (p : Provider ε) (loadId id : Nat) : Provider ε :=
  match p.loads[loadId]?, p.callers[id]? with
  | some ⟨_, .finished result, _⟩, some ⟨_, _, .waiting waited⟩ =>
    if waited = loadId then
      (p.setCaller id (.ending (.ofResult result))).enqueue [.caller id]
    else p
  | _, _ => p

/-- Cancel a caller, unless it has ended: the provider after it, and whether it had not ended. -/
def cancelCaller (p : Provider ε) (id : Nat) : Provider ε × Bool :=
  match p.callers[id]? with
  | none => (p, false)
  | some caller =>
    match caller.stage with
    | .finished _ => (p, false)
    | .waiting _ => ((p.setCaller id (.ending .cancelled)).enqueue [.caller id], true)
    | _ => (p.setCaller id (.ending .cancelled), true)

/-! ## Collections -/

/-- What passes the filters of a collection. -/
def passing (filters : Option ContentFilters) (artifacts : List Artifact) : CollectOutcome ε :=
  match filters with
  | none => .done artifacts
  | some f =>
    match artifacts.filterM fun a => f.isMatch a.header with
    | .ok kept => .done kept
    | .error e => .unmatched e

/-- A collection starts: callers ask for all slugs. -/
def startCollection (p : Provider ε) (id : Nat) (collection : Collection ε) : Provider ε :=
  match p.catalogue.slugs with
  | .error e => p.setCollection id (.finished (.failed (.template e)))
  | .ok [] => p.setCollection id (.finished (passing collection.filters []))
  | .ok slugs =>
    let first := p.callers.length
    let ids := (List.range slugs.length).map (first + ·)
    let callers : List (Caller ε) := slugs.map fun slug => ⟨slug, some id, .starting⟩
    let q : Provider ε := { p with callers := p.callers ++ callers }
    (q.setCollection id (.gathering ids ids.length)).enqueue (ids.map .caller)

/-- A turn of a collection. -/
def turnCollection (p : Provider ε) (id : Nat) : Provider ε :=
  match p.collections[id]? with
  | none => p
  | some collection =>
    match collection.stage with
    | .starting => p.startCollection id collection
    | .ending (.done artifacts) =>
      p.setCollection id (.finished (passing collection.filters artifacts))
    | .ending outcome => p.setCollection id (.finished outcome)
    | _ => p

/-- The artifacts of some callers who have ended with one. -/
def artifactsOf (p : Provider ε) (ids : List Nat) : List Artifact :=
  ids.filterMap fun id => (p.callers[id]?).bind Caller.artifact?

/-- It is decided how a collection ends. -/
def conclude (p : Provider ε) (id : Nat) (collection : Collection ε) (outcome : CollectOutcome ε) :
    Provider ε :=
  let outcome := if collection.cancelling = .always then .cancelled else outcome
  (p.setCollection id (.ending outcome)).enqueue [.collection id]

/-- A caller reports to its collection. The first failure decides how the collection ends. -/
def report (p : Provider ε) (id callerId : Nat) : Provider ε :=
  match p.collections[id]?, p.callers[callerId]? with
  | some collection, some ⟨_, _, .finished outcome⟩ =>
    match collection.stage with
    | .gathering ids left =>
      match outcome with
      | .cancelled => p.conclude id collection .cancelled
      | .failed e => p.conclude id collection (.failed e)
      | .done _ =>
        if left ≤ 1 then
          p.conclude id collection
            (if collection.cancelling = .callers then .cancelled else .done (p.artifactsOf ids))
        else p.setCollection id (.gathering ids (left - 1))
    | _ => p
  | _, _ => p

/-- Cancel some callers: the provider after it, and whether one of them had not ended. -/
def cancelCallers (p : Provider ε) : List Nat → Provider ε × Bool
  | [] => (p, false)
  | id :: rest =>
    let (p, one) := p.cancelCaller id
    let (p, more) := p.cancelCallers rest
    (p, one || more)

/-- Cancel a collection, unless it has ended: the provider after it, and whether it had not ended. -/
def cancelCollection (p : Provider ε) (id : Nat) : Provider ε × Bool :=
  match p.collections[id]? with
  | none => (p, false)
  | some collection =>
    match collection.stage with
    | .finished _ => (p, false)
    | .gathering ids _ =>
      let (p, some') := p.cancelCallers ids
      let how : Cancelling := if some' then .callers else .always
      let how := if collection.cancelling = .always then .always else how
      ({ p with collections := p.collections.modify id fun c => { c with cancelling := how } }, true)
    | _ => (p.setCollection id (.ending .cancelled), true)

/-! ## Turns -/

/-- Do one thing. -/
def perform (answer : String → Nat → Answer ε) (p : Provider ε) : Task → Provider ε
  | .load id => p.turnLoad answer id
  | .settle id => p.settle id
  | .deliver loadId id => p.deliver loadId id
  | .caller id => p.turnCaller id
  | .report id callerId => p.report id callerId
  | .collection id => p.turnCollection id

/-- Do what is first in the queue. -/
def turn (answer : String → Nat → Answer ε) (p : Provider ε) : Provider ε :=
  match p.ready with
  | [] => p
  | task :: rest =>
    let q : Provider ε := { p with ready := rest }
    q.perform answer task

/-- Take turns while there is something to do, `fuel` times at most. -/
def turns (answer : String → Nat → Answer ε) : Nat → Provider ε → Provider ε
  | 0, p => p
  | fuel + 1, p => if p.ready.isEmpty then p else turns answer fuel (p.turn answer)

/-- The sum of a number for every element of a list. -/
def total {α : Type} (f : α → Nat) : List α → Nat
  | [] => 0
  | a :: rest => f a + total f rest

/-- The turns that a task stands for: after a report a collection can take one more. -/
def taskWork : Task → Nat
  | .report _ _ => 2
  | _ => 1

/-- The turns that a load leads to: it is settled, and delivered to its callers. -/
def loadWork (l : Load ε) : Nat :=
  match l.stage with
  | .finished _ => 0
  | _ => l.callers.length + 1

/-- The turns that a caller leads to, with those of the load that it can start. -/
def callerWork (c : Caller ε) : Nat :=
  match c.stage with
  | .starting => 6
  | .waiting _ => 3
  | .ending _ => 2
  | .finished _ => 0

/-- The turns that a collection leads to, with those of the callers who ask for it. -/
def collectionWork (slugs : Nat) (c : Collection ε) : Nat :=
  match c.stage with
  | .starting => 7 * slugs
  | _ => 0

/-- How many turns there can be without new requests: every turn lowers this number. -/
def turnBound (p : Provider ε) : Nat :=
  total taskWork p.ready + total loadWork p.loads + total callerWork p.callers
    + total (collectionWork p.catalogue.keys.length) p.collections

/-- Take turns until there is nothing to do. -/
def drain (answer : String → Nat → Answer ε) (p : Provider ε) : Provider ε :=
  turns answer p.turnBound p

/-! ## Events -/

/-- What can happen to a provider. -/
inductive Event (ε : Type) where
  | request (slug : String)
  | requestAll (filters : Option ContentFilters)
  | cancelCaller (id : Nat)
  | cancelCollection (id : Nat)
  /-- A page is invalidated, or all are, which is what `close` does too. -/
  | invalidate (slug : Option String)
  /-- The loader of a load answers. -/
  | receive (load : Nat) (result : Except ε Artifact)
  /-- A turn, in which a loader that is called answers so. -/
  | turn (answer : String → Nat → Answer ε)

/-- The provider after something happened. -/
def step (p : Provider ε) : Event ε → Provider ε
  | .request slug => p.request slug
  | .requestAll filters => p.requestAll filters
  | .cancelCaller id => (p.cancelCaller id).1
  | .cancelCollection id => (p.cancelCollection id).1
  | .invalidate slug => p.invalidate slug
  | .receive id result => p.receive id result
  | .turn answer => p.turn answer

/-- The provider after some events. -/
def run (p : Provider ε) (events : List (Event ε)) : Provider ε :=
  events.foldl step p

end Provider

end Folio
