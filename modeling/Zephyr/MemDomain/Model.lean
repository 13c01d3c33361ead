import Zephyr.Kernel.Base
import Zephyr.Library.Run

/-! The partitions of a memory domain in `mem_domain.c`. A domain has a fixed array of slots, and
a slot whose partition has size 0 is free. Addresses and sizes have 32 bits.
-/

namespace Zephyr.MemDomain

open Kernel

def enoent : Int := 2

def enospc : Int := 28

structure KMemPartition where
  start : UInt32 := 0
  size : UInt32 := 0
  attr : UInt32 := 0
  deriving DecidableEq, Repr

structure KMemDomain where
  partitions : List KMemPartition
  numPartitions : UInt8 := 0
  deriving DecidableEq, Repr

/-- `CONFIG_MAX_DOMAIN_PARTITIONS`, and `max_partitions`, which start-up asserts to be no larger.
-/
structure Config where
  slots : Nat
  maxPartitions : UInt8
  fits
  : maxPartitions.toNat ≤ slots

/-- The memory of a domain with all bytes 0. -/
def zeroed (config : Config) : KMemDomain where
  partitions := List.replicate config.slots {}

/-- A NULL partition is `none`. -/
def checkAddPartition (domain : KMemDomain) (part : Option KMemPartition) : Bool :=
  match part with
  | none => false
  | some part =>
      let pstart := part.start
      let pend := part.start + part.size
      if part.size = 0 then false
      else if pend ≤ pstart then false
      else
        (domain.partitions.take domain.numPartitions.toNat).all (fun dpart =>
          let dstart := dpart.start
          let dend := dstart + dpart.size
          dpart.size = 0 || !(pend > dstart && dend > pstart))

/-- The loop of `k_mem_domain_init` from index `i` on. -/
def initPartitions (domain : KMemDomain) (i : Nat) : List (Option KMemPartition) → KMemDomain × Int
  | [] => (domain, 0)
  | part :: parts =>
      if checkAddPartition domain part then
        let domain :=
          { partitions := domain.partitions.set i (part.getD {})
            numPartitions := domain.numPartitions + 1 }
        initPartitions domain (i + 1) parts
      else (domain, -einval)

def kMemDomainInit (config : Config) (domain : KMemDomain) (parts : List (Option KMemPartition))
    : KMemDomain × Int :=
  if parts.length ≤ config.maxPartitions.toNat then initPartitions (zeroed config) 0 parts
  else (domain, -einval)

def kMemDomainAddPartition (config : Config) (domain : KMemDomain) (part : Option KMemPartition)
    : KMemDomain × Int :=
  if checkAddPartition domain part then
    let slots := domain.partitions.take config.maxPartitions.toNat
    match slots.findIdx? (fun dpart => dpart.size = 0) with
    | none => (domain, -enospc)
    | some pIdx =>
        ({ partitions := domain.partitions.set pIdx (part.getD {})
           numPartitions := domain.numPartitions + 1 },
          0)
  else (domain, -einval)

def kMemDomainRemovePartition (config : Config) (domain : KMemDomain)
    (part : Option KMemPartition)
    : KMemDomain × Int :=
  match part with
  | none => (domain, -einval)
  | some part =>
      let slots := domain.partitions.take config.maxPartitions.toNat
      match slots.findIdx? (fun dpart => dpart.start = part.start && dpart.size = part.size) with
      | none => (domain, -enoent)
      | some pIdx =>
          ({ partitions := domain.partitions.modify pIdx (fun dpart => { dpart with size := 0 })
             numPartitions := domain.numPartitions - 1 },
            0)

inductive Call where
  | init (parts : List (Option KMemPartition))
  | add (part : Option KMemPartition)
  | remove (part : Option KMemPartition)
  deriving DecidableEq, Repr

def Call.isInit : Call → Bool
  | .init _ => true
  | _ => false

def call (config : Config) (domain : KMemDomain) : Call → KMemDomain × Int
  | .init parts => kMemDomainInit config domain parts
  | .add part => kMemDomainAddPartition config domain part
  | .remove part => kMemDomainRemovePartition config domain part

def step (config : Config) (domain : KMemDomain) (made : Call) : Option KMemDomain :=
  some (call config domain made).1

end Zephyr.MemDomain
