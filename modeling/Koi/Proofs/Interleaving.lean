import Koi.Proofs.Warming
import Koi.Proofs.Workers

/-!
# Interleavings

However the steps of several calls are mixed, a cache gains masks as the store has them and loses
nothing. Two jobs may scale the same mask, and the later image takes the place of an equal one. So
what a call returns does not depend on the schedule.

* `Workers.Sound`: the invariant, with its step `Sound.step` and its run `Sound.run`.
* `Workers.Balanced`: how often masks were scaled, in terms of what the cache holds.
* `Call.map_some_images`: a call that is over has the masks that the store has.
* `Workers.step_eq_or_left_lt`, `Workers.exists_turn`: every call comes to its end.
* `Workers.run_independent`: what holds after every schedule.
-/

namespace Koi

/-! ## The invariant -/

/-- What a cache holds is held by another one. -/
def Cache.Within (old new : Cache) : Prop :=
  ∀ (key : MaskKey) (image : Image), old.images[key]? = some image →
    new.images[key]? = some image

theorem Cache.Within.trans {old cache new : Cache} (h : old.Within cache) (h' : cache.Within new) :
    old.Within new :=
  fun key image hi => h' key image (h key image hi)

theorem Cache.Within.contains {old new : Cache} (h : old.Within new) {key : MaskKey}
    (hc : old.contains key = true) : new.contains key = true := by
  rw [contains_eq_isSome] at hc ⊢
  obtain ⟨image, hi⟩ := Option.isSome_iff_exists.1 hc
  rw [h key image hi, Option.isSome_some]

/-- The cache holds masks as the store has them. -/
def Cache.Faithful (store : Store) (cache : Cache) : Prop :=
  ∀ (key : MaskKey) (image : Image), cache.images[key]? = some image →
    store.scaled? key = some image

namespace Job

variable {store : Store} {cache cache' : Cache} {job next : Job}

/-- A job has the mask that the store has; one that has ended with an image has left it in the
    cache. -/
def Sound (store : Store) (cache : Cache) (job : Job) : Prop :=
  match job.phase with
  | .waiting | .missed => True
  | .scaled image => store.scaled? job.key = some image
  | .found image | .stored image => cache.images[job.key]? = some image
  | .unknown => store.scaled? job.key = none

theorem Sound.mono (h : job.Sound store cache) (hc : cache.Within cache') :
    job.Sound store cache' := by
  obtain ⟨key, phase⟩ := job
  cases phase with
  | waiting => trivial
  | missed => trivial
  | scaled image => exact h
  | found image => exact hc key image h
  | stored image => exact hc key image h
  | unknown => exact h

theorem Sound.getElem?_of_image? (h : job.Sound store cache) {image : Image}
    (hi : job.image? = some image) : cache.images[job.key]? = some image := by
  obtain ⟨key, phase⟩ := job
  cases phase <;> cases hi <;> exact h

/-- A job for a mask that the store has can take a step until it has an image. -/
theorem Sound.left_ne_zero (h : job.Sound store cache)
    (known : store.contains job.key.name = true) (hi : job.image? = none) : job.left ≠ 0 := by
  obtain ⟨key, phase⟩ := job
  cases phase with
  | unknown =>
    rw [← store.isSome_scaled? key, show store.scaled? key = none from h] at known
    cases known
  | found image => cases hi
  | stored image => cases hi
  | waiting => simp [left]
  | missed => simp [left]
  | scaled image => simp [left]

theorem isPending_of_left_eq_zero (h : job.left = 0) : job.isPending = false := by
  obtain ⟨key, phase⟩ := job
  cases phase with
  | scaled image => cases h
  | _ => rfl

namespace Act

/-- A step of a job takes nothing from the cache: an image that it replaces is the same. -/
theorem within (h : Act store job cache next cache') (hc : cache.Faithful store)
    (hj : job.Sound store cache) : cache.Within cache' := by
  intro other image ho
  cases h with
  | @put key cache scaled =>
    rw [Cache.getElem?_put]
    split
    · next hk =>
      subst hk
      have hs : store.scaled? key = some scaled := hj
      rw [← hs, hc key image ho]
    · exact ho
  | _ => exact ho

theorem faithful (h : Act store job cache next cache') (hc : cache.Faithful store)
    (hj : job.Sound store cache) : cache'.Faithful store := by
  intro other image ho
  cases h with
  | @put key cache scaled =>
    rw [Cache.getElem?_put] at ho
    split at ho
    · next hk =>
      subst hk
      rw [← Option.some.inj ho]
      exact hj
    · exact hc other image ho
  | _ => exact hc other image ho

theorem sound (h : Act store job cache next cache') (hj : job.Sound store cache) :
    next.Sound store cache' := by
  cases h with
  | find h => exact h
  | miss _ => trivial
  | scale h => exact h
  | fail h => exact h
  | @put key cache image =>
    have hp : (cache.put key image).images[key]? = some image := by
      rw [Cache.getElem?_put, if_pos rfl]
    exact hp
  | rest _ => exact hj

theorem key_eq (h : Act store job cache next cache') : next.key = job.key := by
  cases h <;> rfl

/-- A step that changes anything leaves fewer steps to take. -/
theorem eq_or_left_lt (h : Act store job cache next cache') :
    job.left = 0 ∧ next = job ∧ cache' = cache ∨ next.left < job.left := by
  cases h with
  | rest h => exact .inl ⟨h, rfl, rfl⟩
  | _ => exact .inr (by simp [left])

end Act

end Job

namespace Workers

variable {store : Store} {workers : Workers}

/-- The cache holds masks as the store has them, and so do the jobs. -/
structure Sound (store : Store) (workers : Workers) : Prop where
  faithful : workers.cache.Faithful store
  jobs : ∀ call ∈ workers.calls, ∀ job ∈ call.jobs, job.Sound store workers.cache

theorem Sound.start {cache : Cache} (h : cache.Faithful store) (requests : List Request) :
    Sound store (start store cache requests) where
  faithful := h
  jobs := by
    intro call hc job hj
    obtain ⟨request, -, rfl⟩ := List.mem_map.1 hc
    obtain ⟨key, -, rfl⟩ := List.mem_map.1 hj
    trivial

theorem Sound.of_mem {cache : Cache} {before after : List Call} {request : Request}
    {front back : List Job} {job : Job}
    (h : Sound store ⟨cache, before ++ ⟨request, front ++ job :: back⟩ :: after⟩) :
    job.Sound store cache :=
  h.jobs ⟨request, front ++ job :: back⟩ (by simp) job (by simp)

theorem Sound.within_step (h : Sound store workers) (turn : Turn) :
    workers.cache.Within (workers.step store turn).cache := by
  have hs := workers.step_spec store turn
  generalize workers.step store turn = after at hs
  cases hs with
  | idle _ => exact fun _ _ hi => hi
  | act ha _ => exact ha.within h.faithful h.of_mem

theorem Sound.step (h : Sound store workers) (turn : Turn) :
    Sound store (workers.step store turn) := by
  have hw := h.within_step turn
  have hs := workers.step_spec store turn
  generalize workers.step store turn = after at hs hw
  cases hs with
  | idle _ => exact h
  | @act cache cache' before after request front back job next ha _ =>
    refine ⟨ha.faithful h.faithful h.of_mem, ?_⟩
    have mono : ∀ call ∈ before ++ ⟨request, front ++ job :: back⟩ :: after, ∀ other ∈ call.jobs,
        other.Sound store cache' := fun call hc other ho => (h.jobs call hc other ho).mono hw
    simp only [List.forall_mem_append, List.forall_mem_cons] at mono ⊢
    obtain ⟨hb, ⟨hf, -, hk⟩, ha'⟩ := mono
    exact ⟨hb, ⟨hf, ha.sound h.of_mem, hk⟩, ha'⟩

theorem Sound.run (h : Sound store workers) (schedule : List Turn) :
    Sound store (workers.run store schedule) := by
  induction schedule generalizing workers with
  | nil => exact h
  | cons turn rest ih => exact ih (h.step turn)

theorem Sound.within_run (h : Sound store workers) (schedule : List Turn) :
    workers.cache.Within (workers.run store schedule).cache := by
  induction schedule generalizing workers with
  | nil => exact fun _ _ hi => hi
  | cons turn rest ih => exact (h.within_step turn).trans (ih (h.step turn))

/-! ## Which jobs there are -/

/-- The requests of the calls with the keys of their jobs. -/
def shape (workers : Workers) : List (Request × List MaskKey) :=
  workers.calls.map fun call => (call.request, call.jobs.map Job.key)

theorem shape_step (store : Store) (workers : Workers) (turn : Turn) :
    (workers.step store turn).shape = workers.shape := by
  have hs := workers.step_spec store turn
  generalize workers.step store turn = after at hs
  cases hs with
  | idle _ => rfl
  | act ha _ => simp [shape, ha.key_eq]

theorem shape_run (store : Store) (workers : Workers) (schedule : List Turn) :
    (workers.run store schedule).shape = workers.shape := by
  induction schedule generalizing workers with
  | nil => rfl
  | cons turn rest ih => exact (ih (workers.step store turn)).trans (shape_step store workers turn)

theorem shape_start (store : Store) (cache : Cache) (requests : List Request) :
    (start store cache requests).shape =
      requests.map fun request => (request, request.jobKeys store) := by
  simp [shape, start, Call.start, Function.comp_def]

/-- Steps do not change which masks a call needs. -/
theorem exists_call (store : Store) (cache : Cache) {requests : List Request} {place : Nat}
    {request : Request} (hr : requests[place]? = some request) (schedule : List Turn) :
    ∃ call, ((start store cache requests).run store schedule).calls[place]? = some call ∧
      call.request = request ∧ call.jobs.map Job.key = request.jobKeys store := by
  have hs := shape_run store (start store cache requests) schedule
  rw [shape_start] at hs
  have hp := congrArg (·[place]?) hs
  simp only [shape, List.getElem?_map, hr, Option.map_some, Option.map_eq_some_iff] at hp
  obtain ⟨call, hc, hk⟩ := hp
  obtain ⟨hreq, hkeys⟩ := Prod.mk.inj hk
  exact ⟨call, hc, hreq, hkeys⟩

/-! ## How often masks are scaled -/

/-- Every scaled mask is in the cache, or on its way there, or took the place of another one: this
    happened `n` times. -/
def Balanced (workers : Workers) (n : Nat) : Prop :=
  workers.cache.scaleCount = workers.cache.size + (workers.pending + n)

theorem Balanced.start {cache : Cache} (h : cache.size = cache.scaleCount) (store : Store)
    (requests : List Request) : (start store cache requests).Balanced 0 := by
  have hp : (Workers.start store cache requests).pending = 0 := by
    rw [pending, List.sum_eq_zero_iff_forall_eq_nat]
    simp [Workers.start, Call.start, Job.isPending]
  rw [Balanced, hp]
  exact h.symm

theorem Balanced.step {n : Nat} (h : workers.Balanced n) (store : Store) (turn : Turn) :
    (workers.step store turn).Balanced (n + if workers.overwrites turn then 1 else 0) := by
  have hs := workers.step_spec store turn
  generalize workers.step store turn = after at hs
  cases hs with
  | idle hp =>
    have ho : workers.overwrites turn = false := by rw [overwrites, hp]
    rwa [ho]
  | act ha hp =>
    rw [overwrites, hp]
    simp only [Balanced, pending, List.map_append, List.map_cons, List.sum_append, List.sum_cons,
      List.countP_append, List.countP_cons] at h ⊢
    cases ha with
    | find _ => simpa [Job.isPending] using h
    | miss _ => simpa [Job.isPending] using h
    | scale _ =>
      simp [Job.isPending, Cache.count, Cache.size] at h ⊢
      omega
    | fail _ => simpa [Job.isPending] using h
    | put =>
      rw [Cache.size_put]
      simp only [Job.isPending, Cache.put, Bool.true_and] at h ⊢
      split <;> simp at h ⊢ <;> omega
    | rest hl => simpa [Job.isPending_of_left_eq_zero hl] using h

theorem Balanced.run {n : Nat} (h : workers.Balanced n) (store : Store) (schedule : List Turn) :
    (workers.run store schedule).Balanced (n + overwritten store workers schedule) := by
  induction schedule generalizing workers n with
  | nil => exact h
  | cons turn rest ih =>
    rw [overwritten, ← Nat.add_assoc]
    exact ih (h.step store turn)

/-! ## Progress -/

/-- A step changes nothing, or fewer steps are left. -/
theorem step_eq_or_left_lt (store : Store) (workers : Workers) (turn : Turn) :
    workers.step store turn = workers ∨ (workers.step store turn).left < workers.left := by
  have hs := workers.step_spec store turn
  generalize workers.step store turn = after at hs
  cases hs with
  | idle _ => exact .inl rfl
  | act ha _ =>
    obtain ⟨-, rfl, rfl⟩ | hl := ha.eq_or_left_lt
    · exact .inl rfl
    · refine .inr ?_
      simp only [left, List.map_append, List.map_cons, List.sum_append, List.sum_cons]
      omega

/-- The step of a job that has not ended leaves fewer steps. -/
theorem left_step_lt {turn : Turn} {job : Job} (h : workers.job? turn = some job)
    (hl : job.left ≠ 0) (store : Store) : (workers.step store turn).left < workers.left := by
  have hs := workers.step_spec store turn
  generalize workers.step store turn = after at hs
  cases hs with
  | idle hp =>
    rw [hp] at h
    cases h
  | act ha hp =>
    rw [hp] at h
    obtain rfl := Option.some.inj h
    obtain ⟨hz, -, -⟩ | hlt := ha.eq_or_left_lt
    · exact absurd hz hl
    · simp only [left, List.map_append, List.map_cons, List.sum_append, List.sum_cons]
      omega

end Workers

namespace Call

variable {store : Store} {cache : Cache} {call : Call}

/-- The first job without an image may always go on. -/
theorem exists_job? (h : call.isOver = false) :
    ∃ place job, call.job? place = some job ∧ job ∈ call.jobs ∧ job.image? = none := by
  obtain ⟨request, jobs⟩ := call
  obtain ⟨job, hf⟩ : ∃ job, jobs.find? (fun job => job.image?.isNone) = some job := by
    rw [← Option.isSome_iff_exists, List.find?_isSome]
    simpa [isOver] using h
  obtain ⟨hn, front, back, rfl, hover⟩ := List.find?_eq_some_iff_append.1 hf
  have hall : front.all (fun job => job.image?.isSome) = true := by simpa using hover
  exact ⟨front.length, job, job?_append_cons request hall job back, by simp, by simpa using hn⟩

/-- A call that is over has the masks that the store has, in the order of its keys. -/
theorem map_some_images (hc : cache.Faithful store) (hs : ∀ job ∈ call.jobs, job.Sound store cache)
    (h : call.isOver = true) :
    call.images.map some = (call.jobs.map Job.key).map store.scaled? := by
  obtain ⟨request, jobs⟩ := call
  simp only [isOver, images] at h hs ⊢
  induction jobs with
  | nil => rfl
  | cons job rest ih =>
    obtain ⟨hj, hr⟩ := List.forall_mem_cons.1 hs
    rw [List.all_cons, Bool.and_eq_true] at h
    obtain ⟨image, hi⟩ := Option.isSome_iff_exists.1 h.1
    rw [List.filterMap_cons_some hi, List.map_cons, ih hr h.2, List.map_cons, List.map_cons,
      hc job.key image (hj.getElem?_of_image? hi)]

/-- A call that is over has left the masks of all its keys in the cache. -/
theorem contains_of_isOver (hs : ∀ job ∈ call.jobs, job.Sound store cache)
    (h : call.isOver = true) {key : MaskKey} (hk : key ∈ call.jobs.map Job.key) :
    cache.contains key = true := by
  obtain ⟨job, hj, rfl⟩ := List.mem_map.1 hk
  obtain ⟨image, hi⟩ := Option.isSome_iff_exists.1 (List.all_eq_true.1 h job hj)
  rw [Cache.contains_eq_isSome, (hs job hj).getElem?_of_image? hi, Option.isSome_some]

theorem isOver_of_reply? {reply : Reply} (h : call.reply? = some reply) : call.isOver = true := by
  unfold reply? at h
  split at h
  · assumption
  · cases h

end Call

/-! ## Pictures -/

namespace Store

variable {store : Store} {size : UInt32} {masks : List Image}

theorem filterMap_coatImage?_eq_zipWith {coats : List Coat}
    (h : masks.map some = coats.map fun coat => store.scaled? ⟨size, coat.name⟩) :
    coats.filterMap (store.coatImage? size) =
      List.zipWith (fun coat mask => mask.coated coat.color) coats masks := by
  induction coats generalizing masks with
  | nil => rfl
  | cons coat rest ih =>
    obtain ⟨mask, others, rfl, hm, hr⟩ := List.map_eq_cons_iff.1 h
    simp only at hm
    have hi : store.coatImage? size coat = some (mask.coated coat.color) := by
      rw [coatImage?, ← hm, Option.map_some]
    rw [List.filterMap_cons_some hi, List.zipWith_cons_cons, ih hr]

/-- The picture of a koi is painted with the masks that the store has. -/
theorem picture_eq_painting {a : Attributes} (valid : ValidSize size)
    (h : masks.map some = (a.layerNames.map (MaskKey.mk size)).map store.scaled?)
    (background : Option Color) :
    store.picture a background size = .ok (a.painting background size.toNat masks) := by
  have known : ∀ name ∈ a.layerNames, store.contains name = true := by
    intro name hn
    have hm : store.scaled? ⟨size, name⟩ ∈ masks.map some := by
      rw [h]
      exact List.mem_map_of_mem (List.mem_map_of_mem hn)
    obtain ⟨mask, -, hs⟩ := List.mem_map.1 hm
    rw [← store.isSome_scaled? ⟨size, name⟩, ← hs, Option.isSome_some]
  obtain ⟨image, hi, -⟩ := picture_eq_ok valid known background
  obtain ⟨-, -, rfl⟩ := picture_eq_foldl hi
  rw [hi, Attributes.painting, filterMap_coatImage?_eq_zipWith]
  rw [h, ← a.map_name_coats, List.map_map, List.map_map]
  rfl

end Store

/-! ## Returns -/

namespace Request

variable {store : Store} {request : Request}

/-- The store has the masks that a request needs. -/
theorem Served.contains (h : request.Served store) {key : MaskKey}
    (hk : key ∈ request.jobKeys store) : store.contains key.name = true := by
  cases request with
  | fetch name size =>
    rw [jobKeys, if_pos h.1, List.mem_singleton] at hk
    exact hk ▸ h.2
  | warm sizes =>
    have valid : ValidSizes sizes := h
    rw [jobKeys, if_pos valid] at hk
    exact ((Cache.mem_warmKeys_iff store _ key).1 hk).2
  | render attributes background size =>
    rw [jobKeys, if_pos h.1] at hk
    obtain ⟨name, hn, rfl⟩ := List.mem_map.1 hk
    exact h.2 name hn

end Request

namespace Call

variable {store : Store} {cache : Cache} {jobs : List Job} {reply : Reply}

/-- A fetch returns the scaled mask. -/
theorem eq_of_fetch {name : LayerName} {size : UInt32} (hc : cache.Faithful store)
    (hs : ∀ job ∈ jobs, job.Sound store cache)
    (hk : jobs.map Job.key = (Request.fetch name size).jobKeys store)
    (h : (Call.mk (.fetch name size) jobs).reply? = some reply) :
    ∃ mask, store.get? name = some mask ∧ reply = .image (mask.resize size.toNat) := by
  have hover := isOver_of_reply? h
  have hi := map_some_images hc hs hover
  rw [reply?, if_pos hover] at h
  simp only [hk, Request.jobKeys] at hi h
  split at hi
  · obtain ⟨image, hm, himage⟩ := List.map_eq_singleton_iff.1 hi
    rw [hm] at h
    obtain ⟨mask, hg, hr⟩ := Option.map_eq_some_iff.1 himage.symm
    exact ⟨mask, hg, by rw [hr]; exact (Option.some.inj h).symm⟩
  · rw [List.map_nil, List.map_eq_nil_iff] at hi
    rw [hi] at h
    cases h

/-- A painting returns the picture that the store has. -/
theorem eq_of_render {a : Attributes} {background : Option Color} {size : UInt32}
    (hc : cache.Faithful store) (hs : ∀ job ∈ jobs, job.Sound store cache)
    (hk : jobs.map Job.key = (Request.render a background size).jobKeys store)
    (h : (Call.mk (.render a background size) jobs).reply? = some reply) :
    ∃ image, store.picture a background size = .ok image ∧ reply = .image image := by
  have hover := isOver_of_reply? h
  have hi := map_some_images hc hs hover
  rw [reply?, if_pos hover] at h
  simp only at h
  split at h
  · next valid =>
    rw [hk, Request.jobKeys, if_pos valid] at hi
    exact ⟨_, Store.picture_eq_painting valid hi background, (Option.some.inj h).symm⟩
  · cases h

/-- A warming returns when all masks are there. -/
theorem contains_of_warm {sizes : List UInt32} (hs : ∀ job ∈ jobs, job.Sound store cache)
    (hk : jobs.map Job.key = (Request.warm sizes).jobKeys store)
    (h : (Call.mk (.warm sizes) jobs).reply? = some reply) :
    Cache.Warmed store sizes cache := by
  intro size hm name hn
  have hover := isOver_of_reply? h
  apply contains_of_isOver hs hover
  rw [reply?, if_pos hover] at h
  simp only at h
  split at h
  · next valid =>
    rw [hk, Request.jobKeys, if_pos valid, Cache.mem_warmKeys_iff]
    exact ⟨List.mem_eraseDups.2 hm, hn⟩
  · cases h

/-- A call that is over has returned if its request can be served. -/
theorem exists_reply {call : Call} (hc : cache.Faithful store)
    (hs : ∀ job ∈ call.jobs, job.Sound store cache)
    (hk : call.jobs.map Job.key = call.request.jobKeys store)
    (served : call.request.Served store) (hover : call.isOver = true) :
    ∃ reply, call.reply? = some reply := by
  obtain ⟨request, jobs⟩ := call
  rw [reply?, if_pos hover]
  cases request with
  | fetch name size =>
    have hi := map_some_images hc hs hover
    rw [hk, Request.jobKeys, if_pos served.1] at hi
    obtain ⟨image, hm, -⟩ := List.map_eq_singleton_iff.1 hi
    exact ⟨.image image, by rw [hm]; rfl⟩
  | warm sizes => exact ⟨_, if_pos served⟩
  | render attributes background size => exact ⟨_, if_pos served.1⟩

end Call

namespace Workers

/-- A call that has not returned can take a step, if its request can be served. -/
theorem exists_turn {store : Store} {workers : Workers} (h : Sound store workers) {place : Nat}
    {call : Call} (hc : workers.calls[place]? = some call)
    (hk : call.jobs.map Job.key = call.request.jobKeys store)
    (served : call.request.Served store) (hr : workers.reply? place = none) :
    ∃ job, (workers.step store ⟨place, job⟩).left < workers.left := by
  have hs := h.jobs call (List.mem_of_getElem? hc)
  have hover : call.isOver = false := by
    rw [reply?, hc, Option.bind_some] at hr
    by_contra hover
    obtain ⟨reply, hreply⟩ :=
      Call.exists_reply h.faithful hs hk served (Bool.not_eq_false _ ▸ hover)
    rw [hr] at hreply
    cases hreply
  obtain ⟨place', job, hj, hm, hi⟩ := Call.exists_job? hover
  have known : store.contains job.key.name = true := by
    apply served.contains
    rw [← hk]
    exact List.mem_map_of_mem hm
  have hturn : workers.job? ⟨place, place'⟩ = some job := by rw [job?, hc, Option.bind_some, hj]
  exact ⟨place', left_step_lt hturn ((hs job hm).left_ne_zero known hi) store⟩

/-- Any calls begin on one cache, which some history has left, and their steps follow each other as
    a schedule says. A fetch that has returned has the store's mask, scaled. What is in the cache is
    a mask of the store, scaled to a square of the size that its key names, and stays as it is.
    Masks were scaled as often as there are images, and once more for each image that is not in the
    cache yet and for each that took the place of another. After a warming has returned all of its
    masks are there for good. A painting that has returned has the picture that is painted by one
    worker, after every history. Every step that changes anything brings the calls nearer to their
    end, and a call whose masks the store has can take such a step until it has returned. -/
theorem run_independent (store : Store) (history requests : List Request) (schedule : List Turn)
    (begun now : Workers) (hb : begun = start store (Cache.after store history) requests)
    (hn : now = begun.run store schedule) :
    (∀ (call : Nat) name size reply, requests[call]? = some (.fetch name size) →
      now.reply? call = some reply →
      ∃ mask, store.get? name = some mask ∧ reply = .image (mask.resize size.toNat)) ∧
    (∀ (key : MaskKey) (image : Image), now.cache.images[key]? = some image →
      (∃ mask, store.get? key.name = some mask ∧ image = mask.resize key.size.toNat) ∧
      (image.width = key.size.toNat ∧ image.height = key.size.toNat) ∧
      ∀ more, (now.run store more).cache.images[key]? = some image) ∧
    (now.cache.size ≤ now.cache.scaleCount ∧
      now.cache.scaleCount - now.cache.size = now.pending + begun.overwritten store schedule) ∧
    (∀ (call : Nat) sizes reply, requests[call]? = some (.warm sizes) →
      now.reply? call = some reply →
      ∀ more, ∀ size ∈ sizes, ∀ name, store.contains name = true →
        (now.run store more).cache.contains ⟨size, name⟩ = true) ∧
    (∀ (call : Nat) a background size reply,
      requests[call]? = some (.render a background size) → now.reply? call = some reply →
      ∃ image, reply = .image image ∧ ∀ other : List Request,
        ((render store a background size).runOn (Cache.after store other)).1 = .ok image) ∧
    (∀ turn, now.step store turn = now ∨ (now.step store turn).left < now.left) ∧
    (∀ (call : Nat) request, requests[call]? = some request → request.Served store →
      now.reply? call = none → ∃ job, (now.step store ⟨call, job⟩).left < now.left) := by
  have hcoherent := Cache.coherent_after store history
  have hs : Sound store now := by
    rw [hn, hb]
    exact (Sound.start (fun _ _ hi => hcoherent.image_eq hi) requests).run schedule
  have hcall : ∀ {place : Nat} {request : Request}, requests[place]? = some request →
      ∃ jobs, now.calls[place]? = some ⟨request, jobs⟩ ∧
        jobs.map Job.key = request.jobKeys store := by
    intro place request hr
    obtain ⟨⟨_, jobs⟩, hc, rfl, hk⟩ := exists_call store (Cache.after store history) hr schedule
    exact ⟨jobs, by rw [hn, hb, hc], hk⟩
  have hjobs : ∀ {place : Nat} {call : Call}, now.calls[place]? = some call →
      ∀ job ∈ call.jobs, job.Sound store now.cache :=
    fun hc => hs.jobs _ (List.mem_of_getElem? hc)
  refine ⟨?_, ?_, ?_, ?_, ?_, step_eq_or_left_lt store now, ?_⟩
  · intro place name size reply hr hreply
    obtain ⟨jobs, hc, hk⟩ := hcall hr
    rw [reply?, hc, Option.bind_some] at hreply
    exact Call.eq_of_fetch hs.faithful (hjobs hc) hk hreply
  · intro key image hi
    obtain ⟨mask, hm, himage⟩ := Option.map_eq_some_iff.1 (hs.faithful key image hi)
    exact ⟨⟨mask, hm, himage.symm⟩, himage ▸ mask.size_resize _,
      fun more => hs.within_run more key image hi⟩
  · have hbalanced : now.Balanced (0 + begun.overwritten store schedule) := by
      rw [hn]
      exact (hb ▸ Balanced.start hcoherent.size_eq store requests).run store schedule
    rw [Balanced] at hbalanced
    omega
  · intro place sizes reply hr hreply more size hm name hname
    obtain ⟨jobs, hc, hk⟩ := hcall hr
    rw [reply?, hc, Option.bind_some] at hreply
    exact (hs.within_run more).contains
      (Call.contains_of_warm (hjobs hc) hk hreply size hm name hname)
  · intro place a background size reply hr hreply
    obtain ⟨jobs, hc, hk⟩ := hcall hr
    rw [reply?, hc, Option.bind_some] at hreply
    obtain ⟨image, hi, rfl⟩ := Call.eq_of_render hs.faithful (hjobs hc) hk hreply
    exact ⟨image, rfl, fun other =>
      (Cache.render_after_eq_ok_iff store other a background size image).2 hi⟩
  · intro place request hr served hreply
    obtain ⟨jobs, hc, hk⟩ := hcall hr
    exact exists_turn hs hc hk served hreply

/-- Two fetches that miss the same mask, a warming and a painting that go on at the same time, and a
    fetch that has still to put its image into the cache. -/
theorem run_independent_race :
    ∃ (store : Store) (requests : List Request) (schedule : List Turn) (begun now : Workers)
      (a : Attributes) (body picture : Image),
      begun = start store (Cache.after store [.fetch .outline 1]) requests ∧
      now = begun.run store schedule ∧ store.get? .body = some body ∧
      now.reply? 0 = some (.image (body.resize 1)) ∧
      now.reply? 1 = some (.image (body.resize 1)) ∧
      now.cache.scaleCount = 5 ∧ now.cache.size = 3 ∧ now.pending = 1 ∧
      begun.overwritten store schedule = 1 ∧
      (now.reply? 2).isSome = true ∧
      (now.run store [⟨4, 0⟩]).cache.contains ⟨1, .fin⟩ = true ∧
      now.reply? 3 = some (.image picture) ∧
      ((render store a none 1).runOn (Cache.after store [])).1 = .ok picture ∧
      now.reply? 4 = none ∧ ∃ job, (now.step store ⟨4, job⟩).left < now.left := by
  let store := Store.empty.insert .body (.pair (.rgba 1 2 3 255) (.rgba 0 0 255 128))
    |>.insert .fin (Image.filled 1 1 .clear)
    |>.insert .outline (Image.filled 1 1 .clear)
  let a : Attributes :=
    { variety := .kohaku
      bodyLayers := []
      headLayers := []
      finLayers := []
      bodyColor := ⟨230, 230, 230⟩
      finColor := ⟨215, 215, 215⟩
      primaryColor := ⟨200, 20, 20⟩ }
  let requests : List Request :=
    [.fetch .body 1, .fetch .body 1, .warm [1], .render a none 1, .fetch .fin 2]
  let race : List Turn := [⟨0, 0⟩, ⟨1, 0⟩, ⟨1, 0⟩, ⟨0, 0⟩, ⟨4, 0⟩, ⟨0, 0⟩, ⟨1, 0⟩]
  let others : List Turn := [⟨2, 1⟩, ⟨2, 0⟩, ⟨3, 2⟩, ⟨2, 1⟩, ⟨2, 2⟩, ⟨2, 1⟩, ⟨3, 1⟩, ⟨3, 0⟩, ⟨3, 2⟩]
  let schedule := race ++ others ++ [⟨4, 0⟩]
  let begun := start store (Cache.after store [.fetch .outline 1]) requests
  let now := begun.run store schedule
  obtain ⟨fetched, -, ⟨-, excess⟩, warmed, painted, -, progress⟩ :=
    run_independent store [.fetch .outline 1] requests schedule begun now rfl rfl
  obtain ⟨first, h0⟩ := Option.isSome_iff_exists.1
    (by decide +kernel : (now.reply? 0).isSome = true)
  obtain ⟨second, h1⟩ := Option.isSome_iff_exists.1
    (by decide +kernel : (now.reply? 1).isSome = true)
  obtain ⟨counts, h2⟩ := Option.isSome_iff_exists.1
    (by decide +kernel : (now.reply? 2).isSome = true)
  obtain ⟨third, h3⟩ := Option.isSome_iff_exists.1
    (by decide +kernel : (now.reply? 3).isSome = true)
  have h4 : now.reply? 4 = none :=
    Option.isNone_iff_eq_none.1 (by decide +kernel : (now.reply? 4).isNone = true)
  have hcount : now.cache.scaleCount = 5 := by decide +kernel
  have hsize : now.cache.size = 3 := by decide +kernel
  have hpending : now.pending = 1 := by decide +kernel
  obtain ⟨body, hbody, rfl⟩ := fetched 0 .body 1 first rfl h0
  obtain ⟨body', hbody', rfl⟩ := fetched 1 .body 1 second rfl h1
  obtain rfl := Option.some.inj (hbody.symm.trans hbody')
  obtain ⟨picture, rfl, hpicture⟩ := painted 3 a none 1 third rfl h3
  refine ⟨store, requests, schedule, begun, now, a, body, picture, rfl, rfl, hbody, h0, h1, hcount,
    hsize, hpending, by omega, by rw [h2]; rfl, ?_, h3, hpicture [], h4, ?_⟩
  · exact warmed 2 [1] counts rfl h2 [⟨4, 0⟩] 1 (by decide) .fin (by decide)
  · exact progress 4 (.fetch .fin 2) rfl ⟨by decide, by decide⟩ h4

end Workers

end Koi
