import Runnel.Utility.Condition
import Runnel.Utility.Echo
import Runnel.Utility.Excerpt
import Runnel.Utility.Files
import Runnel.Utility.PathName
import Runnel.Utility.Sequence
import Runnel.Utility.Surroundings
import Runnel.Utility.Waiting

/-!
# Runnel.Utility.Standard

The built-in commands and their names.
-/

namespace Runnel

/-- The built-in commands by name. -/
def standardHandlers : List (String × Handler) := [
  ("pwd", Surroundings.pwdHandler),
  ("cd", Surroundings.cdHandler),
  ("env", Surroundings.envHandler),
  ("which", Surroundings.whichHandler),
  ("exit", Surroundings.exitHandler),
  ("ls", Files.lsHandler),
  ("cp", Files.cpHandler),
  ("mv", Files.mvHandler),
  ("rm", Files.rmHandler),
  ("mkdir", Files.mkdirHandler),
  ("touch", Files.touchHandler),
  ("basename", PathName.baseHandler),
  ("dirname", PathName.directoryHandler),
  ("echo", Echo.handler),
  ("cat", Files.catHandler),
  ("head", Excerpt.headHandler),
  ("tail", Excerpt.tailHandler),
  ("seq", Sequence.handler),
  ("yes", Waiting.yesHandler),
  ("sleep", Waiting.sleepHandler),
  ("true", Waiting.statusHandler 0),
  ("false", Waiting.statusHandler 1),
  ("test", Condition.handler),
  ("[", Condition.handler)]

end Runnel
