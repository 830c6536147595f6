import Mathlib.Data.Rat.Floor

set_option autoImplicit false

/-!
# `TimerRequest.h` and `TimerRequest.c`

Times are exact rationals where the source has doubles.
-/

namespace NetworkProj

inductive TimerRequestType where
  | start
  | cancel
deriving DecidableEq

structure TimerRequest where
  type : TimerRequestType
  session : Int32
  seqNum : Int32
  seconds : Rat
deriving DecidableEq

structure TimerExpired where
  session : Int32
  seqNum : Int32
deriving DecidableEq

-- Both calls pass their `uint32_t` arguments as `int`.
def sendTimerRequest (session seqNum : UInt32) (seconds : Rat) : TimerRequest where
  type := .start
  session := session.toInt32
  seqNum := seqNum.toInt32
  seconds := seconds

def cancelTimerRequest (session seqNum : UInt32) : TimerRequest where
  type := .cancel
  session := session.toInt32
  seqNum := seqNum.toInt32
  seconds := 0

structure TimeVal where
  tvSec : Int
  tvUsec : Int
deriving DecidableEq, Inhabited

def usec2Sec : Rat := 1 / 1000000

-- `(double)(later.tv_sec-earlier.tv_sec)+USEC2SEC*later.tv_usec-USEC2SEC*earlier.tv_usec`
def TimeVal.since (later earlier : TimeVal) : Rat :=
  ((later.tvSec - earlier.tvSec : Int) : Rat) + usec2Sec * later.tvUsec - usec2Sec * earlier.tvUsec

end NetworkProj
