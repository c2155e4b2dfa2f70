/-!
# The program

The version of the program and the environment variable that makes it say more.
-/

namespace BlockWatch

def version : String := "0.1.0"

/-- The environment variable that asks for more log lines; its value does not matter. -/
def verboseVariable : String := "SYNCWATCH_VERBOSE"

end BlockWatch
