import Koi.Proofs.Layering
import Mathlib.Algebra.GroupWithZero.Nat

/-!
# Workers on one cache

Several calls may use one cache at a time. Each of them comes down to jobs, one for each mask that
it needs, and a job takes three steps that nothing interrupts: it looks the image up; if there is
none it counts and scales the mask; it puts the image into the cache. The steps of different jobs
follow each other in any order. A painting fetches the outline only when it has all other masks.

* `Job.act`: one step of a job. `Job.act_spec` lists what it can be.
* `Call`: a request with its jobs; `Call.reply?` is what it returns.
* `Workers.step`, `Workers.run`: the step of one job, and the steps of a schedule.
-/

namespace Koi

/-! ## Jobs -/

/-- How far the work for a mask has come. -/
inductive Job.Phase where
  /-- The cache has not been asked. -/
  | waiting
  /-- The cache had no image. -/
  | missed
  /-- The mask has been counted and scaled, and is not in the cache yet. -/
  | scaled (image : Image)
  /-- The cache had this image. -/
  | found (image : Image)
  /-- This image has been put into the cache. -/
  | stored (image : Image)
  /-- The store has no such mask. -/
  | unknown

/-- The work for one mask in one size: a call of `get_image`, or of `build_cache_for_size` for one
    layer. -/
structure Job where
  key : MaskKey
  phase : Job.Phase

namespace Cache

/-- Counts that a mask is scaled. -/
def count (cache : Cache) : Cache := ⟨cache.images, cache.scaleCount + 1⟩

/-- Keeps an image, in the place of one with the same key. -/
def put (cache : Cache) (key : MaskKey) (image : Image) : Cache :=
  ⟨cache.images.insert key image, cache.scaleCount⟩

theorem getElem?_put (cache : Cache) (key other : MaskKey) (image : Image) :
    (cache.put key image).images[other]? =
      if key = other then some image else cache.images[other]? := by
  simp [put, Std.ExtTreeMap.getElem?_insert]

theorem size_put (cache : Cache) (key : MaskKey) (image : Image) :
    (cache.put key image).size = if cache.contains key then cache.size else cache.size + 1 := by
  simp [put, size, contains, Std.ExtTreeMap.size_insert]

end Cache

namespace Job

/-- The image that a job has ended with. -/
def image? (job : Job) : Option Image :=
  match job.phase with
  | .found image | .stored image => some image
  | _ => none

/-- Whether a job has a scaled image that it has still to put into the cache. -/
def isPending (job : Job) : Bool :=
  match job.phase with
  | .scaled _ => true
  | _ => false

/-- Whether a job has put an image into the cache. -/
def isStored (job : Job) : Bool :=
  match job.phase with
  | .stored _ => true
  | _ => false

/-- The number of steps that a job may still take. -/
def left (job : Job) : Nat :=
  match job.phase with
  | .waiting => 3
  | .missed => 2
  | .scaled _ => 1
  | _ => 0

/-- One step of a job: looking up, counting and scaling, or storing. A job that has ended rests. -/
def act (store : Store) (job : Job) (cache : Cache) : Job × Cache :=
  match job.phase with
  | .waiting =>
    match cache.images[job.key]? with
    | some image => (⟨job.key, .found image⟩, cache)
    | none => (⟨job.key, .missed⟩, cache)
  | .missed =>
    match store.scaled? job.key with
    | some image => (⟨job.key, .scaled image⟩, cache.count)
    | none => (⟨job.key, .unknown⟩, cache)
  | .scaled image => (⟨job.key, .stored image⟩, cache.put job.key image)
  | _ => (job, cache)

theorem act_waiting (store : Store) (key : MaskKey) (cache : Cache) :
    (Job.mk key .waiting).act store cache =
      match cache.images[key]? with
      | some image => (⟨key, .found image⟩, cache)
      | none => (⟨key, .missed⟩, cache) :=
  rfl

theorem act_missed (store : Store) (key : MaskKey) (cache : Cache) :
    (Job.mk key .missed).act store cache =
      match store.scaled? key with
      | some image => (⟨key, .scaled image⟩, cache.count)
      | none => (⟨key, .unknown⟩, cache) :=
  rfl

/-- What a step of a job can be. -/
inductive Act (store : Store) : Job → Cache → Job → Cache → Prop where
  | find {key : MaskKey} {cache : Cache} {image : Image} (h : cache.images[key]? = some image) :
    Act store ⟨key, .waiting⟩ cache ⟨key, .found image⟩ cache
  | miss {key : MaskKey} {cache : Cache} (h : cache.images[key]? = none) :
    Act store ⟨key, .waiting⟩ cache ⟨key, .missed⟩ cache
  | scale {key : MaskKey} {cache : Cache} {image : Image} (h : store.scaled? key = some image) :
    Act store ⟨key, .missed⟩ cache ⟨key, .scaled image⟩ cache.count
  | fail {key : MaskKey} {cache : Cache} (h : store.scaled? key = none) :
    Act store ⟨key, .missed⟩ cache ⟨key, .unknown⟩ cache
  | put {key : MaskKey} {cache : Cache} {image : Image} :
    Act store ⟨key, .scaled image⟩ cache ⟨key, .stored image⟩ (cache.put key image)
  | rest {job : Job} {cache : Cache} (h : job.left = 0) : Act store job cache job cache

theorem act_spec (store : Store) (job : Job) (cache : Cache) :
    Act store job cache (job.act store cache).1 (job.act store cache).2 := by
  obtain ⟨key, phase⟩ := job
  cases phase with
  | waiting =>
    rw [act_waiting]
    split
    · next image h => exact .find h
    · next h => exact .miss h
  | missed =>
    rw [act_missed]
    split
    · next image h => exact .scale h
    · next h => exact .fail h
  | scaled image => exact .put
  | found image => exact .rest rfl
  | stored image => exact .rest rfl
  | unknown => exact .rest rfl

end Job

/-! ## Calls -/

/-- The keys of the masks that a request needs. A painting asks for all of its layers, the outline
    last. -/
def Request.jobKeys (store : Store) : Request → List MaskKey
  | .fetch name size => if ValidSize size then [⟨size, name⟩] else []
  | .warm sizes => if ValidSizes sizes then Cache.warmKeys store sizes.eraseDups else []
  | .render attributes _ size =>
    if ValidSize size then attributes.layerNames.map (MaskKey.mk size) else []

/-- A request asks for sizes that images may have and for layers that have masks. -/
def Request.Served (store : Store) : Request → Prop
  | .fetch name size => ValidSize size ∧ store.contains name = true
  | .warm sizes => ValidSizes sizes
  | .render attributes _ size =>
    ValidSize size ∧ ∀ name ∈ attributes.layerNames, store.contains name = true

/-- A koi painted with masks that are given in painting order. -/
def Attributes.painting (a : Attributes) (background : Option Color) (size : Nat)
    (masks : List Image) : Image :=
  (List.zipWith (fun coat mask => mask.coated coat.color) a.coats masks).foldl Image.overlay
    (canvas background size)

/-- A request and the jobs that it needs, in the order of their masks. -/
structure Call where
  request : Request
  jobs : List Job

namespace Call

/-- A call that has not begun. -/
def start (store : Store) (request : Request) : Call :=
  ⟨request, (request.jobKeys store).map fun key => ⟨key, .waiting⟩⟩

/-- Whether all jobs have ended with an image. -/
def isOver (call : Call) : Bool := call.jobs.all fun job => job.image?.isSome

/-- The images that the jobs have ended with. -/
def images (call : Call) : List Image := call.jobs.filterMap Job.image?

/-- The job at a place, if it may go on. The jobs of a call go on in any order, but the last one of
    a painting, for the outline, begins after all others have ended. -/
def job? (call : Call) (place : Nat) : Option Job :=
  match call.request with
  | .render .. =>
    if place + 1 < call.jobs.length ∨
        (call.jobs.take place).all (fun job => job.image?.isSome) = true then
      call.jobs[place]?
    else none
  | _ => call.jobs[place]?

/-- A job may go on if all jobs before it have ended with an image. -/
theorem job?_append_cons (request : Request) {front : List Job}
    (h : front.all (fun job => job.image?.isSome) = true) (job : Job) (back : List Job) :
    (Call.mk request (front ++ job :: back)).job? front.length = some job := by
  have hget : (front ++ job :: back)[front.length]? = some job := by simp
  have htake : (front ++ job :: back).take front.length = front := List.take_left
  unfold job?
  split
  · rw [htake, if_pos (.inr h), hget]
  · exact hget

/-- What a call returns once all of its jobs have ended with an image. -/
def reply? (call : Call) : Option Reply :=
  if call.isOver then
    match call.request with
    | .fetch _ _ => call.images.head?.map .image
    | .warm sizes =>
      if ValidSizes sizes then
        some (.counts ⟨sizes.eraseDups.length, call.jobs.countP Job.isStored⟩)
      else none
    | .render attributes background size =>
      if ValidSize size then
        some (.image (attributes.painting background size.toNat call.images))
      else none
  else none

end Call

/-! ## Schedules -/

/-- Whose turn it is: a call, and one of its jobs by its place. -/
structure Turn where
  call : Nat
  job : Nat

/-- A cache and the calls that use it. -/
structure Workers where
  cache : Cache
  calls : List Call

namespace Workers

/-- No call has begun. -/
def start (store : Store) (cache : Cache) (requests : List Request) : Workers :=
  ⟨cache, requests.map (Call.start store)⟩

/-- What a call has returned. -/
def reply? (workers : Workers) (call : Nat) : Option Reply :=
  workers.calls[call]?.bind Call.reply?

/-- The job whose turn it is, if it may go on. -/
def job? (workers : Workers) (turn : Turn) : Option Job :=
  workers.calls[turn.call]?.bind fun call => call.job? turn.job

/-- One step of the job whose turn it is, if it may go on. -/
def step (store : Store) (workers : Workers) (turn : Turn) : Workers :=
  match workers.calls[turn.call]? with
  | none => workers
  | some call =>
    match call.job? turn.job with
    | none => workers
    | some job =>
      let (job, cache) := job.act store workers.cache
      ⟨cache, workers.calls.set turn.call ⟨call.request, call.jobs.set turn.job job⟩⟩

/-- The steps of a schedule. -/
def run (store : Store) (workers : Workers) (schedule : List Turn) : Workers :=
  schedule.foldl (step store) workers

/-- The number of images that have been scaled and are not in the cache yet. -/
def pending (workers : Workers) : Nat :=
  (workers.calls.map fun call => call.jobs.countP Job.isPending).sum

/-- The number of steps that the jobs may still take. -/
def left (workers : Workers) : Nat :=
  (workers.calls.map fun call => (call.jobs.map Job.left).sum).sum

/-- Whether the next step puts an image into the cache where there is one already. -/
def overwrites (workers : Workers) (turn : Turn) : Bool :=
  match workers.job? turn with
  | some job => job.isPending && workers.cache.contains job.key
  | none => false

/-- How often a schedule puts an image into the cache where there is one already. -/
def overwritten (store : Store) : Workers → List Turn → Nat
  | _, [] => 0
  | workers, turn :: rest =>
    (if workers.overwrites turn then 1 else 0) + overwritten store (workers.step store turn) rest

/-- What a step can be: nothing, or one step of one job of one call. -/
inductive Step (store : Store) (turn : Turn) : Workers → Workers → Prop where
  | idle {workers : Workers} (h : workers.job? turn = none) : Step store turn workers workers
  | act {cache cache' : Cache} {before after : List Call} {request : Request}
    {front back : List Job} {job next : Job} (h : Job.Act store job cache next cache')
    (hp : (Workers.mk cache (before ++ ⟨request, front ++ job :: back⟩ :: after)).job? turn =
      some job) :
    Step store turn ⟨cache, before ++ ⟨request, front ++ job :: back⟩ :: after⟩
      ⟨cache', before ++ ⟨request, front ++ next :: back⟩ :: after⟩

theorem getElem?_of_job? {call : Call} {place : Nat} {job : Job}
    (h : call.job? place = some job) : call.jobs[place]? = some job := by
  unfold Call.job? at h
  split at h
  · split at h
    · exact h
    · cases h
  · exact h

/-- The element at a place may be changed where it stands. -/
theorem exists_set_eq {α : Type} {l : List α} {place : Nat} {a : α} (h : l[place]? = some a)
    (b : α) : ∃ front back, l = front ++ a :: back ∧ l.set place b = front ++ b :: back := by
  obtain ⟨hlt, rfl⟩ := List.getElem?_eq_some_iff.1 h
  obtain ⟨front, back, hl, -, hset⟩ := List.exists_of_set hlt
  exact ⟨front, back, hl, hset⟩

theorem step_spec (store : Store) (workers : Workers) (turn : Turn) :
    Step store turn workers (workers.step store turn) := by
  cases hc : workers.calls[turn.call]? with
  | none =>
    rw [step, hc]
    exact .idle (by rw [job?, hc, Option.bind_none])
  | some call =>
    cases hj : call.job? turn.job with
    | none =>
      rw [step, hc]
      simp only
      rw [hj]
      exact .idle (by rw [job?, hc, Option.bind_some, hj])
    | some job =>
      have hs : workers.step store turn = ⟨(job.act store workers.cache).2,
          workers.calls.set turn.call
            ⟨call.request, call.jobs.set turn.job (job.act store workers.cache).1⟩⟩ := by
        rw [step, hc]
        simp only
        rw [hj]
      have hp : workers.job? turn = some job := by rw [job?, hc, Option.bind_some, hj]
      obtain ⟨front, back, hjobs, hset⟩ :=
        exists_set_eq (getElem?_of_job? hj) (job.act store workers.cache).1
      obtain ⟨before, after, hcalls, hset'⟩ := exists_set_eq hc
        ⟨call.request, call.jobs.set turn.job (job.act store workers.cache).1⟩
      rw [hs, hset', hset]
      obtain ⟨cache, calls⟩ := workers
      obtain ⟨request, jobs⟩ := call
      simp only at hjobs hcalls
      subst hjobs hcalls
      exact .act (job.act_spec store cache) hp

end Workers

end Koi
