import ExclusaoMutua.Lib.Machine
import ExclusaoMutua.Lib.SignedOrder
import ExclusaoMutua.Lib.LittleEndian
import ExclusaoMutua.Lib.Marks
import ExclusaoMutua.Lib.InFlight
import ExclusaoMutua.Lib.Codec
import ExclusaoMutua.Lib.StreamFilter
import ExclusaoMutua.Lib.OrderedStack
import ExclusaoMutua.Fila
import ExclusaoMutua.Fila.Prioridade
import ExclusaoMutua.Fila.Chegada
import ExclusaoMutua.Fila.FilaC
import ExclusaoMutua.Lab2.Mensagem
import ExclusaoMutua.Lab2.Servidor
import ExclusaoMutua.Lab2.ConcessaoUnica
import ExclusaoMutua.Lab2.ServidorAbstrato
import ExclusaoMutua.Lab2.Truncado
import ExclusaoMutua.Lab2.Duplicado
import ExclusaoMutua.Lab2.Rede
import ExclusaoMutua.Lab2.Ficha
import ExclusaoMutua.Lab2.Pedidos
import ExclusaoMutua.Lab2.Relogio
import ExclusaoMutua.Lab2.RelogioServidor
import ExclusaoMutua.Lab2.RelogioCliente
import ExclusaoMutua.Lab2.Ultrapassagem
import ExclusaoMutua.Lab2.Justica
import ExclusaoMutua.Lab2.Progresso
import ExclusaoMutua.Lab2.Perda
import ExclusaoMutua.Lab2.Contas
import ExclusaoMutua.Lab07.Servidor
import ExclusaoMutua.Lab07.Chamadas
import ExclusaoMutua.Lab07.Cliente
import ExclusaoMutua.Lab07.Sistema
import ExclusaoMutua.Lab07.Espera
import ExclusaoMutua.Lab07.Exclusao
import ExclusaoMutua.Lab07.Devolucao
import ExclusaoMutua.Lab07.Recurso
import ExclusaoMutua.Lab07.Relogio
import ExclusaoMutua.Lab07.Xdr
import ExclusaoMutua.Lab07.CentXdr
import ExclusaoMutua.Lab07.Pilha
import ExclusaoMutua.Lab07.Parada
import ExclusaoMutua.Lab07.Fio
