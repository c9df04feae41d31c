import Mathlib.Logic.Basic

namespace GCore

/-!
Error numbers of `syscall/errno.rs`, as the negative values that the kernel
returns.  Only those that a modelled function returns are listed.
-/

def SUCCESS : Int := 0
def ESRCH : Int := -3
def EINTR : Int := -4
def ENOEXEC : Int := -8
def EBADF : Int := -9
def ECHILD : Int := -10
def EAGAIN : Int := -11
def ENOMEM : Int := -12
def EFAULT : Int := -14
def EINVAL : Int := -22
def EMFILE : Int := -24
def ESPIPE : Int := -29
def ENOSYS : Int := -38
def ELIBBAD : Int := -80
def ERESTART : Int := -85
def ENOTSOCK : Int := -88
def EOPNOTSUPP : Int := -95
def EAFNOSUPPORT : Int := -97

end GCore
